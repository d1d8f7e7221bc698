import ImagePreview.Text.Basic

/-!
Tags. A tag that was read keeps its source text and is written back as it stood; a change to the tag
drops the source, and the tag is then put together from its parts.
-/
namespace ImagePreview.Markup

structure Attribute where
  name : Text
  /-- As written between the quotes, character references included. -/
  value : Option Text
deriving DecidableEq

structure StartTag where
  name : Text
  attributes : List Attribute := []
  selfClosing : Bool := false
  source : Option Text := none
deriving DecidableEq

structure EndTag where
  name : Text
  source : Option Text := none
deriving DecidableEq

namespace Attribute

def isNamed (a : Attribute) (name : Text) : Bool := Text.sameWord a.name name

/-- A value between quotes that it does not hold. A value with both kinds of quotes has its double
ones replaced by references. -/
def quoted (value : Text) : Text :=
  if !value.contains '"' then '"' :: value ++ ['"']
  else if !value.contains '\'' then '\'' :: value ++ ['\'']
  else '"' :: Text.replace '"' "&quot;".toList value ++ ['"']

def write (a : Attribute) : Text :=
  ' ' :: a.name ++ (a.value.map fun v => '=' :: quoted v).getD []

def rename (old new : Text) : List Attribute → List Attribute
  | [] => []
  | a :: rest => if a.isNamed old then { a with name := new } :: rest else a :: rename old new rest

section Rename

variable {old new name : Text} {attributes : List Attribute}

/-- Renaming takes the first attribute of a name and leaves those around it. -/
theorem exists_rename (new : Text) (h : (attributes.any fun a => a.isNamed old) = true) :
    ∃ front a rear, attributes = front ++ a :: rear ∧
      (∀ b ∈ front, b.isNamed old = false) ∧ a.isNamed old = true ∧
      rename old new attributes = front ++ { a with name := new } :: rear := by
  induction attributes with
  | nil => contradiction
  | cons a rest ih =>
    cases ho : a.isNamed old with
    | true => exact ⟨[], a, rest, rfl, by simp, ho, by simp [rename, ho]⟩
    | false =>
      rw [List.any_cons, ho, Bool.false_or] at h
      obtain ⟨front, first, rear, rfl, hfront, hfirst, hrename⟩ := ih h
      refine ⟨a :: front, first, rear, rfl, ?_, hfirst, ?_⟩
      · exact List.forall_mem_cons.mpr ⟨ho, hfront⟩
      · simp [rename, ho, hrename]

theorem value_rename (h : (attributes.any fun a => a.isNamed old) = true)
    (hnew : (attributes.any fun a => a.isNamed new) = false) :
    ((rename old new attributes).find? fun a => a.isNamed new).map (fun a => a.value.getD []) =
      (attributes.find? fun a => a.isNamed old).map fun a => a.value.getD [] := by
  obtain ⟨front, a, rear, rfl, hfront, ha, hrename⟩ := exists_rename new h
  have hself : ({ a with name := new } : Attribute).isNamed new = true := Text.sameWord_self new
  have hold : (front.find? fun b => b.isNamed old) = none :=
    List.find?_eq_none.mpr fun b hb => by simp [hfront b hb]
  have hnone : (front.find? fun b => b.isNamed new) = none := by
    rw [List.any_append, Bool.or_eq_false_iff] at hnew
    simpa using hnew.1
  rw [hrename, List.find?_append, List.find?_append, hold, hnone]
  simp [ha, hself]

theorem any_rename_self (h : (attributes.any fun a => a.isNamed old) = true) :
    ((rename old new attributes).any fun a => a.isNamed new) = true := by
  obtain ⟨front, a, rear, -, -, -, hrename⟩ := exists_rename new h
  have hself : ({ a with name := new } : Attribute).isNamed new = true := Text.sameWord_self new
  simp [hrename, hself]

theorem any_rename_of_not (h : (attributes.any fun a => a.isNamed old) = true)
    (hname : (attributes.any fun a => a.isNamed name) = false)
    (hne : Text.sameWord new name = false) :
    ((rename old new attributes).any fun a => a.isNamed name) = false := by
  obtain ⟨front, a, rear, rfl, -, -, hrename⟩ := exists_rename new h
  have hnot : ({ a with name := new } : Attribute).isNamed name = false := hne
  rw [List.any_append, List.any_cons, Bool.or_eq_false_iff, Bool.or_eq_false_iff] at hname
  rw [hrename, List.any_append, List.any_cons, hname.1, hnot, hname.2.2]
  rfl

theorem filter_rename_of_ne (h : (attributes.any fun a => a.isNamed old) = true)
    (hold : Text.sameWord old name = false) (hnew : Text.sameWord new name = false) :
    (rename old new attributes).filter (fun a => a.isNamed name) =
      attributes.filter fun a => a.isNamed name := by
  obtain ⟨front, a, rear, rfl, -, ha, hrename⟩ := exists_rename new h
  have hnot : ({ a with name := new } : Attribute).isNamed name = false := hnew
  have hother : a.isNamed name = false := by
    simp only [isNamed, Text.sameWord, beq_iff_eq, beq_eq_false_iff_ne] at ha hold ⊢
    rwa [ha]
  simp [hrename, hnot, hother]

theorem find?_rename_of_ne (h : (attributes.any fun a => a.isNamed old) = true)
    (hold : Text.sameWord old name = false) (hnew : Text.sameWord new name = false) :
    (rename old new attributes).find? (fun a => a.isNamed name) =
      attributes.find? fun a => a.isNamed name := by
  rw [← List.head?_filter, filter_rename_of_ne h hold hnew, List.head?_filter]

end Rename

end Attribute

namespace StartTag

variable (tag : StartTag)

def isNamed (name : Text) : Bool := Text.sameWord tag.name name

def has (name : Text) : Bool := tag.attributes.any fun a => a.isNamed name

/-- The value of the first attribute of the name, empty if it is written without one. -/
def get? (name : Text) : Option Text :=
  (tag.attributes.find? fun a => a.isNamed name).map fun a => a.value.getD []

def rename (old new : Text) : StartTag :=
  if tag.has old then
    { tag with attributes := Attribute.rename old new tag.attributes, source := none }
  else tag

/-- One more attribute at the end, of a tag that is being put together. -/
def withAttribute (name value : Text) : StartTag :=
  { tag with attributes := tag.attributes ++ [⟨name, some value⟩] }

/-- One more attribute at the end, of a tag that may have been read. -/
def push (name value : Text) : StartTag := { tag.withAttribute name value with source := none }

def write : Text :=
  tag.source.getD <|
    '<' :: tag.name ++ tag.attributes.flatMap Attribute.write ++
      if tag.selfClosing then ['/', '>'] else ['>']

variable {tag} {old new name : Text}

theorem get?_of_not_has (h : tag.has name = false) : tag.get? name = none := by
  rw [get?, Option.map_eq_none_iff, List.find?_eq_none]
  simpa [has] using h

theorem has_of_get? {value : Text} (h : tag.get? name = some value) : tag.has name = true := by
  cases hn : tag.has name with
  | true => rfl
  | false =>
    rw [get?_of_not_has hn] at h
    contradiction

@[simp] theorem name_rename (old new : Text) : (tag.rename old new).name = tag.name := by
  rw [rename]
  split <;> rfl

@[simp] theorem selfClosing_rename (old new : Text) :
    (tag.rename old new).selfClosing = tag.selfClosing := by
  rw [rename]
  split <;> rfl

/-- A value can be found under the new name of its attribute, if no other attribute has it. -/
theorem get?_rename (h : tag.has new = false) : (tag.rename old new).get? new = tag.get? old := by
  cases ho : tag.has old with
  | false => rw [rename, ho, if_neg Bool.false_ne_true, get?_of_not_has h, get?_of_not_has ho]
  | true =>
    rw [rename, ho, if_pos rfl]
    exact Attribute.value_rename ho h

theorem get?_rename_of_ne (hold : Text.sameWord old name = false)
    (hnew : Text.sameWord new name = false) : (tag.rename old new).get? name = tag.get? name := by
  rw [rename]
  split
  · rename_i h
    rw [get?, Attribute.find?_rename_of_ne h hold hnew, ← get?]
  · rfl

theorem has_rename_self (h : tag.has old = true) : (tag.rename old new).has new = true := by
  rw [rename, if_pos h]
  exact Attribute.any_rename_self h

/-- A new name is the only one that renaming can add. -/
theorem has_rename_of_not (h : tag.has name = false) (hne : Text.sameWord new name = false) :
    (tag.rename old new).has name = false := by
  rw [rename]
  split
  · rename_i hold
    exact Attribute.any_rename_of_not hold h hne
  · exact h

theorem has_push (value : Text) :
    (tag.push new value).has name = (tag.has name || Text.sameWord new name) := by
  simp [has, push, withAttribute, Attribute.isNamed]

theorem get?_push {value v : Text} (h : tag.get? name = some v) :
    (tag.push new value).get? name = some v := by
  obtain ⟨a, ha, hv⟩ := Option.map_eq_some_iff.mp h
  rw [get?, push, withAttribute, List.find?_append, ha]
  exact congrArg some hv

theorem get?_push_of_ne (hne : Text.sameWord new name = false) (value : Text) :
    (tag.push new value).get? name = tag.get? name := by
  simp [get?, push, withAttribute, Attribute.isNamed, hne]

end StartTag

namespace EndTag

variable (tag : EndTag)

def isNamed (name : Text) : Bool := Text.sameWord tag.name name

def write : Text := tag.source.getD ('<' :: '/' :: tag.name ++ ['>'])

end EndTag
end ImagePreview.Markup

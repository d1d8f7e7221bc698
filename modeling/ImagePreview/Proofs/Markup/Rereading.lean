import ImagePreview.Proofs.Markup.Sources
import ImagePreview.Proofs.Text.Decoding
import Mathlib.Data.List.DropRight
import Mathlib.Data.List.Forall2

/-!
Tags that were put together are read as what they were put together from. A value stands between
quotes that it does not hold, so that neither a quote nor a bracket in it ends the tag. Names are
written as they are, and have to be plain for this.
-/
namespace ImagePreview.Markup

/-- A name without blanks, quotes, brackets, equals signs and slashes. -/
structure PlainName (name : Text) : Prop where
  ne_nil : name ≠ []
  spaces : ∀ c ∈ name, isSpace c = false
  marks : ∀ c ∈ name, c ∉ ['"', '\'', '=', '<', '>', '/']

instance (name : Text) : Decidable (PlainName name) :=
  decidable_of_iff
    (name ≠ [] ∧ (name.all fun c => !isSpace c) = true ∧
      (name.all fun c => !(['"', '\'', '=', '<', '>', '/'].contains c)) = true)
    ⟨fun h => ⟨h.1, by simpa using h.2.1, by simpa using h.2.2⟩,
      fun h => ⟨h.ne_nil, by simpa using h.spaces, by simpa using h.marks⟩⟩

namespace Attribute

def between (value : Text) : Text :=
  if '"' ∈ value ∧ '\'' ∈ value then Text.replace '"' "&quot;".toList value else value

def reread (a : Attribute) : Attribute := ⟨a.name, some (between (a.value.getD []))⟩

theorem quoted_eq (value : Text) :
    ∃ q, (q = '"' ∨ q = '\'') ∧ q ∉ between value ∧ quoted value = q :: (between value ++ [q]) := by
  by_cases hdouble : '"' ∈ value
  · by_cases hsingle : '\'' ∈ value
    · have hbetween : between value = Text.replace '"' "&quot;".toList value :=
        if_pos ⟨hdouble, hsingle⟩
      refine ⟨'"', Or.inl rfl, ?_, ?_⟩
      · rw [hbetween, Text.replace, List.mem_flatMap]
        rintro ⟨c, -, hc⟩
        split at hc
        · exact absurd hc (by decide)
        · exact absurd (List.mem_singleton.mp hc).symm ‹_›
      · simp [quoted, hdouble, hsingle, hbetween]
    · have hbetween : between value = value := if_neg fun h => hsingle h.2
      refine ⟨'\'', Or.inr rfl, by rwa [hbetween], ?_⟩
      simp [quoted, hdouble, hsingle, hbetween]
  · have hbetween : between value = value := if_neg fun h => hdouble h.1
    refine ⟨'"', Or.inl rfl, by rwa [hbetween], ?_⟩
    simp [quoted, hdouble, hbetween]

theorem decode_between (value : Text) :
    Text.Reference.decode (between value) = Text.Reference.decode value := by
  rw [between]
  split
  · exact Text.Reference.decode_replace value
  · rfl

end Attribute

/-- Read over without an end of the tag, and with no quote left open. -/
def Passes (t : Text) : Prop :=
  ∀ rest, tagBody? none (t ++ rest) = (tagBody? none rest).map (t ++ ·)

namespace Passes

theorem nil : Passes [] := fun rest => by simp

theorem append {a b : Text} (ha : Passes a) (hb : Passes b) : Passes (a ++ b) := by
  intro rest
  rw [List.append_assoc, ha, hb, Option.map_map]
  exact congrArg (Option.map · _) (funext fun body => (List.append_assoc a b body).symm)

theorem cons {c : Char} {t : Text} (hc : c ∉ ['"', '\'', '>']) (ht : Passes t) :
    Passes (c :: t) := by
  intro rest
  simp only [List.mem_cons, List.not_mem_nil, or_false, not_or] at hc
  obtain ⟨hdouble, hsingle, hend⟩ := hc
  simp [tagBody?, hdouble, hsingle, hend, ht rest, Function.comp_def]

theorem of_forall {t : Text} (h : ∀ c ∈ t, c ∉ ['"', '\'', '>']) : Passes t := by
  induction t with
  | nil => exact .nil
  | cons c t ih =>
    exact .cons (h c List.mem_cons_self) (ih fun d hd => h d (List.mem_cons_of_mem c hd))

theorem tagBody?_quoted {q : Char} {body : Text} (hq : q ∉ body) (rest : Text) :
    tagBody? (some q) (body ++ q :: rest) =
      (tagBody? none rest).map (body ++ q :: ·) := by
  induction body with
  | nil => simp [tagBody?]
  | cons c body ih =>
    rw [List.mem_cons, not_or] at hq
    simp [tagBody?, Ne.symm hq.1, ih hq.2, Function.comp_def]

theorem quoted (value : Text) : Passes (Attribute.quoted value) := by
  obtain ⟨q, hquote, hq, hvalue⟩ := Attribute.quoted_eq value
  intro rest
  have hend : ¬ q = '>' := by rcases hquote with rfl | rfl <;> decide
  simp [hvalue, tagBody?, hend, hquote, tagBody?_quoted hq, Function.comp_def]

theorem name {name : Text} (h : PlainName name) : Passes name := by
  refine of_forall fun c hc hmark => h.marks c hc ?_
  simp only [List.mem_cons, List.not_mem_nil, or_false] at hmark ⊢
  rcases hmark with rfl | rfl | rfl <;> simp

theorem write {a : Attribute} (h : PlainName a.name) : Passes a.write := by
  refine .cons (by decide) (.append (name h) ?_)
  cases a.value with
  | none => exact .nil
  | some value => exact .cons (by decide) (quoted value)

theorem attributes {as : List Attribute} (h : ∀ a ∈ as, PlainName a.name) :
    Passes (as.flatMap Attribute.write) := by
  induction as with
  | nil => exact .nil
  | cons a as ih =>
    exact .append (write (h a List.mem_cons_self)) (ih fun b hb => h b (List.mem_cons_of_mem a hb))

theorem tagBody?_eq {t : Text} (h : Passes t) (rest : Text) :
    tagBody? none (t ++ '>' :: rest) = some t := by
  rw [h]
  simp [tagBody?]

end Passes

section Attributes

variable {position : Nat} {t : Text}

theorem value_quoted (value rest : Text) :
    Markup.value position (Attribute.quoted value ++ rest) =
      .ok (Attribute.between value, rest) := by
  obtain ⟨q, hquote, hq, hvalue⟩ := Attribute.quoted_eq value
  have hspace : isSpace q = false := by rcases hquote with rfl | rfl <;> rfl
  have hall := bne_of_not_mem hq
  have htake := takeWhile_of_not_mem hq rest
  have hdrop : (Attribute.between value ++ q :: rest).dropWhile (· != q) = q :: rest := by
    rw [List.dropWhile_append_of_pos hall]
    simp
  have hskip : skipSpace (q :: (Attribute.between value ++ q :: rest)) =
      q :: (Attribute.between value ++ q :: rest) := by
    simp [skipSpace, hspace]
  rw [hvalue, List.cons_append, List.append_assoc, List.singleton_append, Markup.value, hskip]
  simp [hquote, hdrop, htake]

theorem attributes_valued {c : Char} {t' after rest v : Text} (hname : skipSpace t = c :: t')
    (hequals : skipSpace (t'.dropWhile isNameChar) = '=' :: after)
    (hvalue : value position after = .ok (v, rest)) :
    attributes position t =
      (attributes position rest).map (⟨c :: t'.takeWhile isNameChar, some v⟩ :: ·) := by
  rw [attributes]
  split
  · simp_all
  · rename_i h
    obtain ⟨rfl, rfl⟩ := List.cons.inj (hname.symm.trans h)
    split
    · rename_i h
      obtain rfl := (List.cons.inj (hequals.symm.trans h)).2
      split
      · simp_all
      · rename_i h
        obtain ⟨rfl, rfl⟩ := Prod.mk.inj (Except.ok.inj (hvalue.symm.trans h))
        rfl
    · simp_all

theorem attributes_bare {c : Char} {t' : Text} (hname : skipSpace t = c :: t')
    (hnone : (skipSpace (t'.dropWhile isNameChar)).head? ≠ some '=') :
    attributes position t =
      (attributes position (skipSpace (t'.dropWhile isNameChar))).map
        (⟨c :: t'.takeWhile isNameChar, some []⟩ :: ·) := by
  rw [attributes]
  split
  · simp_all
  · rename_i h
    obtain ⟨rfl, rfl⟩ := List.cons.inj (hname.symm.trans h)
    split
    · simp_all
    · rfl

/-- A scan over `a` that stops where `b` begins. -/
theorem scan_append (stays : Char → Bool) {a b : Text} (ha : ∀ c ∈ a, stays c = true)
    (hb : ∀ c ∈ b.head?, stays c = false) :
    (a ++ b).takeWhile stays = a ∧ (a ++ b).dropWhile stays = b := by
  rw [List.takeWhile_append_of_pos ha, List.dropWhile_append_of_pos ha]
  cases b with
  | nil => simp
  | cons c b => simp [hb c rfl]

theorem PlainName.isNameChar {name : Text} (h : PlainName name) {c : Char} (hc : c ∈ name) :
    isNameChar c = true := by
  have hequals : c ≠ '=' := fun he => h.marks c hc (by simp [he])
  simp [Markup.isNameChar, hequals, h.spaces c hc]

def Attribute.valueText (a : Attribute) : Text := (a.value.map fun v => '=' :: quoted v).getD []

/-- An attribute begins with a blank, and the first character of its name follows. -/
theorem skipSpace_write {a : Attribute} {c : Char} {name : Text} (ha : PlainName a.name)
    (hname : a.name = c :: name) (rest : Text) :
    skipSpace (a.write ++ rest) = c :: (name ++ (a.valueText ++ rest)) := by
  have hc : isSpace c = false := ha.spaces c (hname ▸ List.mem_cons_self)
  have hblank : isSpace ' ' = true := rfl
  simp [Attribute.write, Attribute.valueText, hname, skipSpace, hc, hblank]

theorem attributes_write_valued {a : Attribute} {v rest : Text} (ha : PlainName a.name)
    (hv : a.value = some v) (ht : skipSpace t = skipSpace (a.write ++ rest)) :
    attributes position t = (attributes position rest).map (a.reread :: ·) := by
  obtain ⟨c, name, hname⟩ := List.exists_cons_of_ne_nil ha.ne_nil
  have htext : a.valueText = '=' :: Attribute.quoted v := by simp [Attribute.valueText, hv]
  obtain ⟨htake, hdrop⟩ := scan_append isNameChar (a := name)
    (b := '=' :: (Attribute.quoted v ++ rest))
    (fun d hd => ha.isNameChar (hname ▸ List.mem_cons_of_mem c hd)) (by simp [isNameChar])
  have hequals : skipSpace ('=' :: (Attribute.quoted v ++ rest)) =
      '=' :: (Attribute.quoted v ++ rest) := rfl
  rw [skipSpace_write ha hname, htext, List.cons_append] at ht
  rw [attributes_valued ht (by rw [hdrop, hequals]) (value_quoted v rest), htake, ← hname,
    Attribute.reread, hv, Option.getD_some]

theorem attributes_write_bare {a : Attribute} {rest : Text} (ha : PlainName a.name)
    (hv : a.value = none) (hrest : ∀ c ∈ rest.head?, isNameChar c = false)
    (hnone : (skipSpace rest).head? ≠ some '=')
    (ht : skipSpace t = skipSpace (a.write ++ rest)) :
    attributes position t = (attributes position (skipSpace rest)).map (a.reread :: ·) := by
  obtain ⟨c, name, hname⟩ := List.exists_cons_of_ne_nil ha.ne_nil
  have htext : a.valueText = [] := by simp [Attribute.valueText, hv]
  obtain ⟨htake, hdrop⟩ := scan_append isNameChar (a := name) (b := rest)
    (fun d hd => ha.isNameChar (hname ▸ List.mem_cons_of_mem c hd)) hrest
  have hbetween : Attribute.between [] = [] := rfl
  rw [skipSpace_write ha hname, htext, List.nil_append] at ht
  rw [attributes_bare ht (by rwa [hdrop]), htake, hdrop, ← hname, Attribute.reread, hv,
    Option.getD_none, hbetween]

/-- Behind an attribute there is the end or a blank, and no equals sign comes next. -/
theorem behind_attribute {as : List Attribute} (h : ∀ a ∈ as, PlainName a.name) :
    (∀ c ∈ (as.flatMap Attribute.write).head?, isNameChar c = false) ∧
      (skipSpace (as.flatMap Attribute.write)).head? ≠ some '=' := by
  cases as with
  | nil => simp [skipSpace]
  | cons a as =>
    have ha := h a List.mem_cons_self
    obtain ⟨c, name, hname⟩ := List.exists_cons_of_ne_nil ha.ne_nil
    refine ⟨by simp [Attribute.write, isNameChar, isSpace], fun he => ?_⟩
    rw [List.flatMap_cons, skipSpace_write ha hname] at he
    obtain rfl := Option.some.inj he
    exact ha.marks '=' (hname ▸ List.mem_cons_self) (by simp)

theorem attributes_write {as : List Attribute} (h : ∀ a ∈ as, PlainName a.name)
    (ht : skipSpace t = skipSpace (as.flatMap Attribute.write)) :
    attributes position t = .ok (as.map Attribute.reread) := by
  induction as generalizing t with
  | nil =>
    rw [attributes]
    split
    · rfl
    · rename_i hc
      rw [ht] at hc
      contradiction
  | cons a as ih =>
    have ha := h a List.mem_cons_self
    have has : ∀ b ∈ as, PlainName b.name := fun b hb => h b (List.mem_cons_of_mem a hb)
    rw [List.flatMap_cons] at ht
    cases hv : a.value with
    | none =>
      obtain ⟨hrest, hnone⟩ := behind_attribute has
      have hskip : skipSpace (skipSpace (as.flatMap Attribute.write)) = _ :=
        List.dropWhile_idempotent isSpace _
      rw [attributes_write_bare ha hv hrest hnone ht, ih has hskip]
      rfl
    | some v =>
      rw [attributes_write_valued ha hv ht, ih has rfl]
      rfl

end Attributes

namespace StartTag

/-- Names are plain, and that of the tag begins no declaration or instruction. -/
structure IsPlain (tag : StartTag) : Prop where
  name : PlainName tag.name
  bang : tag.name.head? ≠ some '!'
  question : tag.name.head? ≠ some '?'
  attributes : ∀ a ∈ tag.attributes, PlainName a.name

instance (tag : StartTag) : Decidable tag.IsPlain :=
  decidable_of_iff
    (PlainName tag.name ∧ tag.name.head? ≠ some '!' ∧ tag.name.head? ≠ some '?' ∧
      ∀ a ∈ tag.attributes, PlainName a.name)
    ⟨fun h => ⟨h.1, h.2.1, h.2.2.1, h.2.2.2⟩, fun h => ⟨h.name, h.bang, h.question, h.attributes⟩⟩

theorem IsPlain.of_names {tag form : StartTag} (h : form.IsPlain) (hname : tag.name = form.name)
    (hattributes : tag.attributes.map Attribute.name = form.attributes.map Attribute.name) :
    tag.IsPlain := by
  refine ⟨by rw [hname]; exact h.name, by rw [hname]; exact h.bang,
    by rw [hname]; exact h.question, fun a ha => ?_⟩
  have hmem : a.name ∈ form.attributes.map Attribute.name := by
    rw [← hattributes]
    exact List.mem_map_of_mem ha
  obtain ⟨b, hb, hnames⟩ := List.mem_map.mp hmem
  rw [← hnames]
  exact h.attributes b hb

def content (tag : StartTag) : Text := tag.name ++ tag.attributes.flatMap Attribute.write

def body (tag : StartTag) : Text := if tag.selfClosing then tag.content ++ ['/'] else tag.content

variable {tag : StartTag}

theorem write_eq (h : tag.source = none) : tag.write = '<' :: (tag.body ++ ['>']) := by
  rw [write, h, body, content]
  cases tag.selfClosing <;> simp

theorem getLast?_ne_slash {t name : Text} (h : PlainName name) :
    (t ++ name).getLast? ≠ some '/' := by
  rw [List.getLast?_append_of_ne_nil t h.ne_nil]
  intro he
  exact h.marks '/' (List.mem_of_getLast? he) (by simp)

theorem getLast?_write_ne_slash {t : Text} {a : Attribute} (h : PlainName a.name) :
    (t ++ a.write).getLast? ≠ some '/' := by
  rw [Attribute.write]
  cases a.value with
  | none =>
    have hblank : t ++ (' ' :: a.name ++ []) = (t ++ [' ']) ++ a.name := by simp
    exact hblank ▸ getLast?_ne_slash h
  | some value =>
    obtain ⟨q, hquote, -, hvalue⟩ := Attribute.quoted_eq value
    have hlast : (t ++ (' ' :: a.name ++ '=' :: Attribute.quoted value)).getLast? = some q := by
      have hsplit : t ++ (' ' :: a.name ++ '=' :: Attribute.quoted value) =
          (t ++ ' ' :: a.name ++ '=' :: q :: Attribute.between value) ++ [q] := by simp [hvalue]
      rw [hsplit, List.getLast?_concat]
    simp only [Option.map_some, Option.getD_some, hlast]
    rcases hquote with rfl | rfl <;> decide

/-- The slash of an empty element can be told from its content. -/
theorem getLast?_content_ne_slash (h : tag.IsPlain) : tag.content.getLast? ≠ some '/' := by
  rw [content]
  rcases List.eq_nil_or_concat tag.attributes with hnone | ⟨front, a, has⟩
  · rw [hnone]
    simpa using getLast?_ne_slash (t := []) h.name
  · have ha := h.attributes a (by simp [has])
    have hlast := getLast?_write_ne_slash (t := tag.name ++ front.flatMap Attribute.write) ha
    simpa [has, List.flatMap_append] using hlast

theorem passes_body (h : tag.IsPlain) : Passes tag.body := by
  have hcontent : Passes tag.content := .append (.name h.name) (.attributes h.attributes)
  rw [body]
  split
  · exact hcontent.append (.cons (by decide) .nil)
  · exact hcontent

theorem element_body (h : tag.IsPlain) :
    Markup.element (tag.body ++ ['>']) =
      .ok (.startTag tag.name (tag.attributes.map Attribute.reread) tag.selfClosing,
        (tag.body ++ ['>']).length) := by
  have hslash : (tag.body.getLast? == some '/') = tag.selfClosing := by
    have hcontent := getLast?_content_ne_slash h
    rw [body]
    cases tag.selfClosing with
    | false => simpa using hcontent
    | true => simp
  have hcontent : (if tag.selfClosing then tag.body.dropLast else tag.body) = tag.content := by
    rw [body]
    cases tag.selfClosing <;> simp
  obtain ⟨hname, hattributes⟩ := scan_append (fun c => !isSpace c) (a := tag.name)
    (b := tag.attributes.flatMap Attribute.write) (by simpa using h.name.spaces)
    (by cases tag.attributes <;> simp [Attribute.write, isSpace])
  rw [Markup.element, (passes_body h).tagBody?_eq]
  simp only [hslash, hcontent]
  rw [content, hname, hattributes, attributes_write h.attributes rfl]
  simp [Except.map]

theorem markup_body (h : tag.IsPlain) :
    markup (tag.body ++ ['>']) = Markup.element (tag.body ++ ['>']) := by
  obtain ⟨c, name, hname⟩ := List.exists_cons_of_ne_nil h.name.ne_nil
  have hslash : c ≠ '/' := fun he => h.name.marks c (hname ▸ List.mem_cons_self) (by simp [he])
  have hbang : c ≠ '!' := fun he => h.bang (by rw [hname, he]; rfl)
  have hquestion : c ≠ '?' := fun he => h.question (by rw [hname, he]; rfl)
  obtain ⟨rest, hbody⟩ : ∃ rest, tag.body ++ ['>'] = c :: rest := by
    rw [body, content, hname]
    split <;> exact ⟨_, rfl⟩
  rw [hbody, markup.eq_def]
  split <;> simp_all

/-- A tag that was put together is read from the whole of its text, with each value between its
quotes. -/
theorem reading_write (h : tag.IsPlain) (hs : tag.source = none) :
    Reading tag.write [(.startTag tag.name (tag.attributes.map Attribute.reread) tag.selfClosing,
      tag.write)] [] := by
  have hread := (markup_body h).trans (element_body h)
  have hfirst := Leads.markup (by simp) hread
  rw [List.take_length, List.drop_length, ← write_eq hs] at hfirst
  have hreading := Reading.item hfirst (.done [])
  rwa [List.append_nil] at hreading

theorem tokens_write (h : tag.IsPlain) (hs : tag.source = none) :
    tokens tag.write = .ok [.startTag
      ⟨tag.name, tag.attributes.map Attribute.reread, tag.selfClosing, some tag.write⟩] := by
  rw [(reading_write h hs).tokens_eq (by rw [write_eq hs]; simp), items_nil]
  rfl

def reread (tag : StartTag) : StartTag :=
  ⟨tag.name, tag.attributes.map Attribute.reread, tag.selfClosing, some tag.write⟩

theorem get?_reread (name : Text) :
    tag.reread.get? name = (tag.get? name).map Attribute.between := by
  simp only [get?, reread, List.find?_map, Option.map_map]
  rfl

namespace IsPlain

theorem rename (h : tag.IsPlain) (old : Text) {new : Text} (hnew : PlainName new) :
    (tag.rename old new).IsPlain := by
  have hattributes : ∀ as : List Attribute, (∀ a ∈ as, PlainName a.name) →
      ∀ a ∈ Attribute.rename old new as, PlainName a.name := by
    intro as has
    induction as with
    | nil => exact has
    | cons a as ih =>
      obtain ⟨ha, hlater⟩ := List.forall_mem_cons.mp has
      rw [Attribute.rename]
      split
      · exact List.forall_mem_cons.mpr ⟨hnew, hlater⟩
      · exact List.forall_mem_cons.mpr ⟨ha, ih hlater⟩
  rw [StartTag.rename]
  split
  · exact ⟨h.name, h.bang, h.question, hattributes _ h.attributes⟩
  · exact h

theorem push (h : tag.IsPlain) {name : Text} (hname : PlainName name) (value : Text) :
    (tag.push name value).IsPlain where
  name := h.name
  bang := h.bang
  question := h.question
  attributes := by
    intro a ha
    rcases List.mem_append.mp ha with ha | ha
    · exact h.attributes a ha
    · rw [List.mem_singleton.mp ha]
      exact hname

end IsPlain

end StartTag

/-- The same attribute up to the way its value is written; a missing value is read as empty. -/
structure Attribute.Rereads (a read : Attribute) : Prop where
  name : read.name = a.name
  value : read.value.map Text.Reference.decode = some (Text.Reference.decode (a.value.getD []))
  missing : a.value = none → read.value = some []

theorem Attribute.rereads_reread (a : Attribute) : a.Rereads a.reread where
  name := rfl
  value := congrArg some (decode_between (a.value.getD []))
  missing h := by rw [reread, h]; rfl

structure StartTag.Rereads (tag read : StartTag) : Prop where
  name : read.name = tag.name
  selfClosing : read.selfClosing = tag.selfClosing
  attributes : List.Forall₂ Attribute.Rereads tag.attributes read.attributes
  source : read.source = some tag.write

/-- A tag that was put together, with plain names and any values, is read as one start tag and as
the same. -/
theorem StartTag.written_reads_back {tag : StartTag} (h : tag.IsPlain) (hs : tag.source = none) :
    ∃ read, tokens tag.write = .ok [.startTag read] ∧ tag.Rereads read := by
  refine ⟨_, tokens_write h hs, rfl, rfl, ?_, rfl⟩
  rw [List.forall₂_map_right_iff, List.forall₂_same]
  exact fun a _ => a.rereads_reread

def Sample.quoted : StartTag :=
  { name := "img".toList
    attributes := [⟨"alt".toList, some "a\"b'c>d/<&am".toList⟩, ⟨"hidden".toList, none⟩,
      ⟨"src".toList, some "?q=&\"quot;'&#x22".toList⟩, ⟨"title".toList, some "\">".toList⟩]
    selfClosing := true }

theorem sample_written_reads_back :
    Sample.quoted.write = ("<img alt=\"a&quot;b'c>d/<&am\" hidden " ++
        "src=\"?q=&&quot;quot;'&#x22\" title='\">'/>").toList ∧
      Sample.quoted.IsPlain ∧ Sample.quoted.source = none ∧
      ∃ read, tokens Sample.quoted.write = .ok [.startTag read] ∧ Sample.quoted.Rereads read := by
  have hplain : Sample.quoted.IsPlain := by decide +kernel
  exact ⟨by decide +kernel, hplain, rfl, StartTag.written_reads_back hplain rfl⟩

end ImagePreview.Markup

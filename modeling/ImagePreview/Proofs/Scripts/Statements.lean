import ImagePreview.Scripts.Block
import ImagePreview.Proofs.Text.Literal

/-!
Scripts that are nothing but calls with literals for arguments, and how they are read: the text as
names, literals and marks, and these as one call after another. A block of registrations reads as
the calls it was written for, so nothing in a url or a preview can change it.
-/
namespace ImagePreview

open Text

namespace Script

inductive Lexeme
  /-- Of a function, with the objects that lead to it. -/
  | name (t : Text)
  /-- A literal as it stands between its quotes, and the text it stands for. -/
  | literal (source value : Text)
  | mark (c : Char)

def isSpace (c : Char) : Bool := c == ' ' || c == '\n'

def isNameChar (c : Char) : Bool := c.isAlpha || c == '.'

def isQuote (c : Char) : Bool := c == '\'' || c == '"'

def isMark (c : Char) : Bool := c == '(' || c == ')' || c == ',' || c == ';'

def lexemes? : Text → Option (List Lexeme)
  | [] => some []
  | c :: t =>
    if isNameChar c then
      (lexemes? (t.dropWhile isNameChar)).map (.name (c :: t.takeWhile isNameChar) :: ·)
    else if isSpace c then lexemes? t
    else if isMark c then (lexemes? t).map (.mark c :: ·)
    else if isQuote c then
      match h : JsLiteral.read? c t with
      | some (value, rest) =>
        (lexemes? rest).map (.literal (t.take (t.length - (rest.length + 1))) value :: ·)
      | none => none
    else none
termination_by t => t.length
decreasing_by
  · exact Nat.lt_succ_of_le (List.dropWhile_sublist isNameChar).length_le
  · simp
  · simp
  · exact Nat.lt_succ_of_lt (JsLiteral.length_read?_lt h)

structure Call where
  function : Text
  arguments : List Text := []
deriving DecidableEq

inductive Stage
  | start
  | named (call : Call)
  | opened (call : Call)
  | argued (call : Call)
  | wanting (call : Call)
  | closed (call : Call)

def calls? : Stage → List Lexeme → Option (List Call)
  | .start, [] => some []
  | .start, .name f :: ls => calls? (.named ⟨f, []⟩) ls
  | .named call, .mark '(' :: ls => calls? (.opened call) ls
  | .opened call, .mark ')' :: ls => calls? (.closed call) ls
  | .opened ⟨f, as⟩, .literal _ a :: ls => calls? (.argued ⟨f, as ++ [a]⟩) ls
  | .argued call, .mark ',' :: ls => calls? (.wanting call) ls
  | .argued call, .mark ')' :: ls => calls? (.closed call) ls
  | .wanting ⟨f, as⟩, .literal _ a :: ls => calls? (.argued ⟨f, as ++ [a]⟩) ls
  | .closed call, .mark ';' :: ls => (calls? .start ls).map (call :: ·)
  | _, _ => none

def writeLiteral (value : Text) : Text := '\'' :: (JsLiteral.escape value ++ ['\''])

def writeArguments : List Text → Text
  | [] => []
  | [a] => writeLiteral a
  | a :: b :: as => writeLiteral a ++ ',' :: ' ' :: writeArguments (b :: as)

def Call.write (call : Call) : Text :=
  '\n' :: (call.function ++ '(' :: (writeArguments call.arguments ++ [')', ';']))

def argumentLexemes : List Text → List Lexeme
  | [] => []
  | [a] => [.literal (JsLiteral.escape a) a]
  | a :: b :: as => .literal (JsLiteral.escape a) a :: .mark ',' :: argumentLexemes (b :: as)

def Call.lexemes (call : Call) : List Lexeme :=
  .name call.function :: .mark '(' :: (argumentLexemes call.arguments ++ [.mark ')', .mark ';'])

def Call.isNamed (call : Call) : Bool :=
  !call.function.isEmpty && call.function.all isNameChar

section Lexemes

variable {c : Char} (t : Text)

theorem lexemes?_space (hn : isNameChar c = false) (h : isSpace c = true) :
    lexemes? (c :: t) = lexemes? t := by
  rw [lexemes?, hn, if_neg Bool.false_ne_true, if_pos h]

theorem lexemes?_mark (hn : isNameChar c = false) (hs : isSpace c = false)
    (h : isMark c = true) : lexemes? (c :: t) = (lexemes? t).map (.mark c :: ·) := by
  rw [lexemes?, hn, if_neg Bool.false_ne_true, hs, if_neg Bool.false_ne_true, if_pos h]

theorem lexemes?_name {name : Text} (hsome : name ≠ []) (hname : ∀ d ∈ name, isNameChar d = true)
    (hc : isNameChar c = false) :
    lexemes? (name ++ c :: t) = (lexemes? (c :: t)).map (.name name :: ·) := by
  obtain ⟨d, name, rfl⟩ := List.exists_cons_of_ne_nil hsome
  obtain ⟨hd, hrest⟩ := List.forall_mem_cons.mp hname
  have hstop : (c :: t).takeWhile isNameChar = [] ∧ (c :: t).dropWhile isNameChar = c :: t := by
    simp [hc]
  rw [List.cons_append, lexemes?, if_pos hd, List.takeWhile_append_of_pos hrest,
    List.dropWhile_append_of_pos hrest, hstop.1, hstop.2, List.append_nil]

theorem lexemes?_literal (value : Text) :
    lexemes? (writeLiteral value ++ t) =
      (lexemes? t).map (.literal (JsLiteral.escape value) value :: ·) := by
  have hread := JsLiteral.read?_escape (Or.inl rfl) value t
  have hsource : (JsLiteral.escape value ++ '\'' :: t).take
      ((JsLiteral.escape value ++ '\'' :: t).length - (t.length + 1)) =
        JsLiteral.escape value := by
    simp
  rw [writeLiteral, List.cons_append, List.append_assoc, List.singleton_append, lexemes?,
    if_neg (by decide), if_neg (by decide), if_neg (by decide), if_pos (by decide)]
  split
  · rename_i found rest h
    rw [hread] at h
    obtain ⟨rfl, rfl⟩ := Prod.mk.inj (Option.some.inj h)
    rw [hsource]
  · rename_i h
    rw [hread] at h
    contradiction

theorem lexemes?_arguments (as : List Text) :
    lexemes? (writeArguments as ++ t) = (lexemes? t).map (argumentLexemes as ++ ·) := by
  fun_induction writeArguments as with
  | case1 => simp [argumentLexemes]
  | case2 a => rw [lexemes?_literal, argumentLexemes]; rfl
  | case3 a b as ih =>
    rw [List.append_assoc, lexemes?_literal, List.cons_append, List.cons_append,
      lexemes?_mark _ (by decide) (by decide) (by decide),
      lexemes?_space _ (by decide) (by decide), ih, argumentLexemes]
    simp [Function.comp_def]

theorem lexemes?_call {call : Call} (h : call.isNamed = true) :
    lexemes? (call.write ++ t) = (lexemes? t).map (call.lexemes ++ ·) := by
  rw [Call.isNamed, Bool.and_eq_true, Bool.not_eq_true', List.isEmpty_eq_false_iff,
    List.all_eq_true] at h
  have hends : lexemes? (')' :: ';' :: t) = (lexemes? t).map ([.mark ')', .mark ';'] ++ ·) := by
    rw [lexemes?_mark _ (by decide) (by decide) (by decide),
      lexemes?_mark _ (by decide) (by decide) (by decide)]
    simp [Function.comp_def]
  have hsplit : call.write ++ t = '\n' :: (call.function ++ '(' ::
      (writeArguments call.arguments ++ (')' :: ';' :: t))) := by
    simp [Call.write]
  rw [hsplit, lexemes?_space _ (by decide) (by decide), lexemes?_name _ h.1 h.2 (by decide),
    lexemes?_mark _ (by decide) (by decide) (by decide), lexemes?_arguments, hends]
  simp [Call.lexemes, Function.comp_def]

theorem lexemes?_flatMap {calls : List Call} (h : ∀ call ∈ calls, call.isNamed = true) :
    lexemes? (calls.flatMap Call.write ++ t) =
      (lexemes? t).map (calls.flatMap Call.lexemes ++ ·) := by
  induction calls with
  | nil => simp
  | cons call calls ih =>
    obtain ⟨hcall, hcalls⟩ := List.forall_mem_cons.mp h
    rw [List.flatMap_cons, List.append_assoc, lexemes?_call _ hcall, ih hcalls]
    simp [Function.comp_def]

end Lexemes

section Calls

variable (f : Text) (ls : List Lexeme)

theorem calls?_wanting (a : Text) (as before : List Text) :
    calls? (.wanting ⟨f, before⟩) (argumentLexemes (a :: as) ++ .mark ')' :: ls) =
      calls? (.closed ⟨f, before ++ a :: as⟩) ls := by
  induction as generalizing a before with
  | nil => rfl
  | cons b as ih =>
    have hmore := ih b (before ++ [a])
    rw [List.append_assoc, List.singleton_append] at hmore
    exact hmore

theorem calls?_opened (as : List Text) :
    calls? (.opened ⟨f, []⟩) (argumentLexemes as ++ .mark ')' :: ls) =
      calls? (.closed ⟨f, as⟩) ls := by
  match as with
  | [] => rfl
  | [a] => rfl
  | a :: b :: as => exact calls?_wanting f ls b as [a]

theorem calls?_lexemes (call : Call) :
    calls? .start (call.lexemes ++ ls) = (calls? .start ls).map (call :: ·) := by
  rw [Call.lexemes, List.cons_append, List.cons_append, List.append_assoc]
  exact calls?_opened call.function _ call.arguments

theorem calls?_flatMap (calls : List Call) :
    calls? .start (calls.flatMap Call.lexemes) = some calls := by
  induction calls with
  | nil => rfl
  | cons call calls ih =>
    rw [List.flatMap_cons, calls?_lexemes, ih]
    rfl

end Calls

theorem eq_escape_of_mem_argumentLexemes {as : List Text} {source value : Text}
    (h : .literal source value ∈ argumentLexemes as) : source = JsLiteral.escape value := by
  fun_induction argumentLexemes as with
  | case1 => contradiction
  | case2 a => simp_all
  | case3 a b as ih =>
    simp only [List.mem_cons, Lexeme.literal.injEq, reduceCtorEq, false_or] at h
    rcases h with ⟨rfl, rfl⟩ | h
    · rfl
    · exact ih h

theorem isWhole_of_mem_lexemes {call : Call} {source value : Text}
    (h : .literal source value ∈ call.lexemes) : JsLiteral.IsWhole source := by
  have hmem : .literal source value ∈ argumentLexemes call.arguments := by
    simpa [Call.lexemes] using h
  rw [eq_escape_of_mem_argumentLexemes hmem]
  exact JsLiteral.isWhole_escape value

theorem lt_not_mem_arguments (as : List Text) : '<' ∉ writeArguments as := by
  have hliteral (a : Text) : '<' ∉ writeLiteral a := by
    simp only [writeLiteral, List.mem_cons, List.mem_append, List.not_mem_nil, or_false, not_or]
    exact ⟨by decide, fun h => (JsLiteral.mem_escape h).1 rfl, by decide⟩
  fun_induction writeArguments as with
  | case1 => simp
  | case2 a => exact hliteral a
  | case3 a b as ih =>
    simp only [List.mem_append, List.mem_cons, not_or]
    exact ⟨hliteral a, by decide, by decide, ih⟩

theorem lt_not_mem_call {call : Call} (h : call.isNamed = true) : '<' ∉ call.write := by
  rw [Call.isNamed, Bool.and_eq_true, List.all_eq_true] at h
  have hname : '<' ∉ call.function := fun hmem => absurd (h.2 _ hmem) (by decide)
  simp [Call.write, hname, lt_not_mem_arguments]

end Script

open Script

def registerFunction : Text := "pagespeed.delayImagesInline.addLowResImages".toList

def replaceFunction : Text := "pagespeed.delayImagesInline.replaceWithLowRes".toList

def Registration.call (entry : Registration) : Call :=
  ⟨registerFunction, [entry.url, entry.dataUri]⟩

def registering (entries : List Registration) : List Call :=
  entries.map Registration.call ++ [⟨replaceFunction, []⟩]

theorem isNamed_of_mem_registering {entries : List Registration} {call : Call}
    (h : call ∈ registering entries) : call.isNamed = true := by
  have hregister : (!registerFunction.isEmpty && registerFunction.all isNameChar) = true := by
    decide
  rw [registering, List.mem_append, List.mem_singleton] at h
  rcases h with h | rfl
  · obtain ⟨entry, -, rfl⟩ := List.mem_map.mp h
    exact hregister
  · decide

theorem read_registering (entries : List Registration) :
    (lexemes? ((registering entries).flatMap Call.write ++ ['\n'])).bind (calls? .start) =
      some (registering entries) := by
  have hline : lexemes? ['\n'] = some [] := by
    rw [lexemes?_space _ (by decide) (by decide), lexemes?]
  rw [lexemes?_flatMap _ fun call h => isNamed_of_mem_registering h, hline, Option.map_some,
    Option.bind_some, List.append_nil, calls?_flatMap]

theorem lt_not_mem_registering (entries : List Registration) :
    '<' ∉ (registering entries).flatMap Call.write ++ ['\n'] := by
  simp only [List.mem_append, List.mem_flatMap, not_or, not_exists, not_and]
  exact ⟨fun call h => lt_not_mem_call (isNamed_of_mem_registering h), by decide⟩

theorem Block.registrationCall_eq (entry : Registration) :
    registrationCall entry = entry.call.write := by
  have hbegin : "\npagespeed.delayImagesInline.addLowResImages('".toList =
      '\n' :: (registerFunction ++ ['(', '\'']) := by decide +kernel
  have hwritten : entry.call.write = '\n' :: (registerFunction ++ ['(', '\'']) ++
      JsLiteral.escape entry.url ++ "', '".toList ++ JsLiteral.escape entry.dataUri ++
        "');".toList := by
    simp [Registration.call, Call.write, writeArguments, writeLiteral]
  exact (congrArg (· ++ JsLiteral.escape entry.url ++ "', '".toList ++
    JsLiteral.escape entry.dataUri ++ "');".toList) hbegin).trans hwritten.symm

theorem Block.write_registrations (assets : Assets) (debug : Bool) (entries : List Registration) :
    (registrations entries).write assets debug =
      scriptOpen ++ ((registering entries).flatMap Call.write ++ ['\n']) ++ scriptClose := by
  have hreplace : replaceCall = Call.write ⟨replaceFunction, []⟩ ++ ['\n'] := by decide +kernel
  have hcalls : entries.flatMap registrationCall =
      (entries.map Registration.call).flatMap Call.write := by
    rw [List.flatMap_map]
    exact congrArg (entries.flatMap ·) (funext registrationCall_eq)
  have hbody : entries.flatMap registrationCall ++ replaceCall =
      (registering entries).flatMap Call.write ++ ['\n'] := by
    rw [hcalls, hreplace, registering, List.flatMap_append, List.flatMap_singleton,
      List.append_assoc]
  calc
    (registrations entries).write assets debug =
        scriptOpen ++ entries.flatMap registrationCall ++ replaceCall ++ scriptClose := rfl
    _ = scriptOpen ++ (entries.flatMap registrationCall ++ replaceCall) ++ scriptClose := by
      rw [List.append_assoc scriptOpen]
    _ = _ := by rw [hbody]

/-- Whatever the urls and previews hold, a block of registrations reads as the calls that register
them, in order, and the one that puts them in. No tag and no end of a literal comes up before, so
different entries are never written as the same block. -/
theorem registrations_read_back (assets : Assets) (debug : Bool) (entries : List Registration) :
    let block := (Block.registrations entries).write assets debug
    ∃ body lexemes, block = Block.scriptOpen ++ body ++ Block.scriptClose ∧ '<' ∉ body ∧
      lexemes? body = some lexemes ∧
      calls? .start lexemes = some (entries.map Registration.call ++ [⟨replaceFunction, []⟩]) ∧
      (∀ source value, .literal source value ∈ lexemes → Text.JsLiteral.IsWhole source) ∧
      ∀ others, (Block.registrations others).write assets debug = block ↔ others = entries := by
  intro block
  have hread (entries : List Registration) :
      lexemes? ((registering entries).flatMap Call.write ++ ['\n']) =
        some ((registering entries).flatMap Call.lexemes) := by
    have hline : lexemes? ['\n'] = some [] := by
      rw [lexemes?_space _ (by decide) (by decide), lexemes?]
    rw [lexemes?_flatMap _ fun call h => isNamed_of_mem_registering h, hline]
    simp
  refine ⟨_, _, Block.write_registrations assets debug entries, ?_, hread entries,
    calls?_flatMap _, ?_, fun others => ⟨fun h => ?_, fun h => by rw [h]⟩⟩
  · simp only [List.mem_append, List.mem_flatMap, not_or, not_exists, not_and]
    exact ⟨fun call h => lt_not_mem_call (isNamed_of_mem_registering h), by decide⟩
  · intro source value h
    obtain ⟨call, -, hmem⟩ := List.mem_flatMap.mp h
    exact isWhole_of_mem_lexemes hmem
  · simp only [block, Block.write_registrations, List.append_cancel_right_eq,
      List.append_cancel_left_eq] at h
    have hsame : registering others = registering entries := by
      have hlexemes := hread others
      rw [h, hread entries, Option.some.injEq] at hlexemes
      have hcalls := congrArg (calls? .start) hlexemes
      rw [calls?_flatMap, calls?_flatMap, Option.some.injEq] at hcalls
      exact hcalls.symm
    rw [registering, registering, List.append_cancel_right_eq] at hsame
    refine List.map_inj_right (fun a b hab => ?_) |>.mp hsame
    cases a
    cases b
    simpa [Registration.call] using hab

end ImagePreview

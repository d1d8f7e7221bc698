import ImagePreview.Proofs.Markup.Extent
import ImagePreview.Scripts.PlainUrl

/-!
The parameters of a url, which stand behind its first question mark. The plain form of a url keeps
them and puts the switch behind them. Where it goes is decided by the last character alone, whatever
that belongs to: a question mark at the end of the query, and an ampersand at the end of a url that
has no query, count as something to put a parameter behind.
-/
namespace ImagePreview

namespace Url

def resource (url : Text) : Text := url.takeWhile (· != '#')

def page (url : Text) : Text := url.takeWhile (· != '?')

def query? (url : Text) : Option Text := (url.dropWhile (· != '?')).tail?

def parametersOf (query : Text) : List Text := query.splitOn '&'

def parameters (url : Text) : List Text := ((query? url).map parametersOf).getD []

def withoutEmptyEnd (parameters : List Text) : List Text :=
  if parameters.getLast? = some [] then parameters.dropLast else parameters

variable {url front query : Text}

theorem not_mem_resource : '#' ∉ resource url := by
  intro hmem
  have hne := List.mem_takeWhile_imp hmem
  contradiction

theorem page_of_not_mem (h : '?' ∉ url) : page url = url :=
  List.takeWhile_eq_self_iff.mpr (Markup.bne_of_not_mem h)

theorem query?_of_not_mem (h : '?' ∉ url) : query? url = none := by
  rw [query?, List.dropWhile_eq_nil_iff.mpr (Markup.bne_of_not_mem h)]
  rfl

theorem page_append (h : '?' ∉ front) : page (front ++ '?' :: query) = front :=
  Markup.takeWhile_of_not_mem h query

theorem query?_append (h : '?' ∉ front) : query? (front ++ '?' :: query) = some query := by
  rw [query?, List.dropWhile_append_of_pos (Markup.bne_of_not_mem h)]
  simp

theorem exists_query (url : Text) :
    '?' ∉ url ∨ ∃ front query, url = front ++ '?' :: query ∧ '?' ∉ front := by
  by_cases hmem : '?' ∈ url
  · exact Or.inr (List.eq_append_cons_of_mem hmem)
  · exact Or.inl hmem

theorem parametersOf_append (front rear : Text) :
    parametersOf (front ++ '&' :: rear) = parametersOf front ++ parametersOf rear :=
  List.splitOn_append_cons_self front rear

theorem parametersOf_of_not_mem (h : '&' ∉ query) : parametersOf query = [query] :=
  List.splitOn_eq_singleton h

/-- The last parameter goes on with the text, as long as that has no ampersand. -/
theorem exists_last_parameter (query : Text) :
    ∃ others last, parametersOf query = others ++ [last] ∧
      ∀ more, '&' ∉ more → parametersOf (query ++ more) = others ++ [last ++ more] := by
  by_cases hmem : '&' ∈ query
  · -- the last ampersand is the first one from behind
    obtain ⟨rear, front, hsplit, hrear⟩ :=
      List.eq_append_cons_of_mem (List.mem_reverse.mpr hmem)
    have hquery : query = front.reverse ++ '&' :: rear.reverse := by
      simpa using congrArg List.reverse hsplit
    have hlast : '&' ∉ rear.reverse := by simpa using hrear
    refine ⟨parametersOf front.reverse, rear.reverse, ?_, fun more hmore => ?_⟩
    · rw [hquery, parametersOf_append, parametersOf_of_not_mem hlast]
    · have hlonger : '&' ∉ rear.reverse ++ more := by
        rw [List.mem_append, not_or]
        exact ⟨hlast, hmore⟩
      rw [hquery, List.append_assoc, List.cons_append, parametersOf_append,
        parametersOf_of_not_mem hlonger]
  · refine ⟨[], query, parametersOf_of_not_mem hmem, fun more hmore => ?_⟩
    refine parametersOf_of_not_mem ?_
    rw [List.mem_append, not_or]
    exact ⟨hmem, hmore⟩

theorem getLast?_parametersOf (query : Text) :
    (parametersOf query).getLast? = some [] ↔ query = [] ∨ query.getLast? = some '&' := by
  rcases List.eq_nil_or_concat query with rfl | ⟨front, c, rfl⟩
  · simp [parametersOf]
  · rw [List.concat_eq_append, List.getLast?_concat]
    by_cases hc : c = '&'
    · have hnone : parametersOf [] = [[]] := parametersOf_of_not_mem List.not_mem_nil
      rw [hc, parametersOf_append, hnone, List.getLast?_concat]
      simp
    · obtain ⟨others, last, -, hmore⟩ := exists_last_parameter front
      rw [hmore [c] (by simpa using Ne.symm hc), List.getLast?_concat]
      simp [hc]

theorem withoutEmptyEnd_concat (others : List Text) (last : Text) :
    withoutEmptyEnd (others ++ [last]) = if last = [] then others else others ++ [last] := by
  rw [withoutEmptyEnd, List.getLast?_concat, List.dropLast_concat]
  simp

end Url

open Url

/-- `plain` is the same page as `url`, with the parameters of `url` and then the switch. -/
structure Switched (url plain : Text) : Prop where
  fragment : '#' ∉ plain
  page : Url.page plain = Url.page (resource url)
  parameters : (query? plain).map parametersOf =
    some (withoutEmptyEnd (Url.parameters (resource url)) ++ [plainParameter])

section Plain

variable {url front query : Text}

theorem plainUrl_eq (url : Text) :
    plainUrl url =
      if (resource url).getLast? = some '?' ∨ (resource url).getLast? = some '&' then
        resource url ++ plainParameter
      else if (resource url).contains '?' then resource url ++ '&' :: plainParameter
      else resource url ++ '?' :: plainParameter := rfl

theorem plainUrl_of_page (h : '?' ∉ resource url) :
    plainUrl url = resource url ++
      if (resource url).getLast? = some '&' then plainParameter else '?' :: plainParameter := by
  have hend : (resource url).getLast? ≠ some '?' := fun he => h (List.mem_of_getLast? he)
  rw [plainUrl_eq]
  by_cases hamp : (resource url).getLast? = some '&'
  · rw [if_pos (Or.inr hamp), if_pos hamp]
  · have hnone : ¬ (resource url).contains '?' = true := by simpa using h
    rw [if_neg (not_or.mpr ⟨hend, hamp⟩), if_neg hnone, if_neg hamp]

theorem getLast?_append_query {c : Char} :
    (front ++ '?' :: query).getLast? = some c ↔
      query = [] ∧ c = '?' ∨ query.getLast? = some c := by
  rcases List.eq_nil_or_concat query with rfl | ⟨rest, d, rfl⟩
  · simp [eq_comm]
  · have hsplit : front ++ '?' :: rest.concat d = (front ++ '?' :: rest).concat d := by simp
    rw [hsplit, List.concat_eq_append, List.concat_eq_append, List.getLast?_concat,
      List.getLast?_concat]
    simp

theorem plainUrl_of_query (h : resource url = front ++ '?' :: query) :
    plainUrl url = front ++ '?' :: (query ++
      if query = [] ∨ query.getLast? = some '?' ∨ query.getLast? = some '&' then plainParameter
      else '&' :: plainParameter) := by
  have hquery : (front ++ '?' :: query).contains '?' = true := by simp
  have hend : (front ++ '?' :: query).getLast? = some '?' ∨
      (front ++ '?' :: query).getLast? = some '&' ↔
      query = [] ∨ query.getLast? = some '?' ∨ query.getLast? = some '&' := by
    rw [getLast?_append_query, getLast?_append_query]
    simp [or_assoc]
  rw [plainUrl_eq, h, hquery]
  by_cases hjoin : query = [] ∨ query.getLast? = some '?' ∨ query.getLast? = some '&'
  · rw [if_pos (hend.mpr hjoin), if_pos hjoin, List.append_assoc, List.cons_append]
  · rw [if_neg (fun he => hjoin (hend.mp he)), if_pos rfl, if_neg hjoin, List.append_assoc,
      List.cons_append]

theorem not_mem_plainUrl : '#' ∉ plainUrl url := by
  have hresource : '#' ∉ resource url := not_mem_resource
  have hswitch : '#' ∉ plainParameter := by decide
  rw [plainUrl_eq]
  split
  · simp [hresource, hswitch]
  · split <;> simp [hresource, hswitch]

/-- Without a query, the switch becomes the query, or it is put behind an ampersand that is not part
of one. -/
theorem switched_of_page (h : '?' ∉ resource url) :
    (Switched url (plainUrl url) ↔ (resource url).getLast? ≠ some '&') ∧
      ((resource url).getLast? = some '&' → query? (plainUrl url) = none) := by
  have hswitch : '?' ∉ plainParameter := by decide
  have hnone (hend : (resource url).getLast? = some '&') : query? (plainUrl url) = none := by
    rw [plainUrl_of_page h, if_pos hend]
    exact query?_of_not_mem (by simp [h, hswitch])
  refine ⟨⟨fun hswitched hend => ?_, fun hend => ?_⟩, hnone⟩
  · have hquery := hswitched.parameters
    rw [hnone hend] at hquery
    contradiction
  · have hplain : plainUrl url = resource url ++ '?' :: plainParameter := by
      rw [plainUrl_of_page h, if_neg hend]
    refine ⟨not_mem_plainUrl, ?_, ?_⟩
    · rw [hplain, page_append h, page_of_not_mem h]
    · have hlone : parametersOf plainParameter = [plainParameter] :=
        parametersOf_of_not_mem (by decide)
      rw [hplain, query?_append h, Option.map_some, hlone, Url.parameters, query?_of_not_mem h]
      rfl

theorem parametersOf_switched (h : query.getLast? ≠ some '?') :
    parametersOf (query ++
        if query = [] ∨ query.getLast? = some '?' ∨ query.getLast? = some '&' then plainParameter
        else '&' :: plainParameter) =
      withoutEmptyEnd (parametersOf query) ++ [plainParameter] := by
  have hamp : '&' ∉ plainParameter := by decide
  obtain ⟨others, last, hlast, hmore⟩ := exists_last_parameter query
  have hempty := getLast?_parametersOf query
  rw [hlast, List.getLast?_concat, Option.some.injEq] at hempty
  have hjoin : (query = [] ∨ query.getLast? = some '?' ∨ query.getLast? = some '&') ↔
      last = [] := by
    rw [hempty]
    simp [h]
  by_cases hnone : last = []
  · rw [if_pos (hjoin.mpr hnone), hmore _ hamp, hlast, withoutEmptyEnd_concat, if_pos hnone, hnone,
      List.nil_append]
  · rw [if_neg (fun he => hnone (hjoin.mp he)), parametersOf_append, parametersOf_of_not_mem hamp,
      hlast, withoutEmptyEnd_concat, if_neg hnone]

/-- The switch is a parameter of its own unless the query ends with a question mark; then it goes on
with the last parameter. -/
theorem switched_of_query (h : resource url = front ++ '?' :: query) (hfront : '?' ∉ front) :
    (Switched url (plainUrl url) ↔ query.getLast? ≠ some '?') ∧
      (query.getLast? = some '?' → ∃ others last, parametersOf query = others ++ [last] ∧
        (query? (plainUrl url)).map parametersOf = some (others ++ [last ++ plainParameter])) := by
  have hparameters : Url.parameters (resource url) = parametersOf query := by
    rw [h, Url.parameters, query?_append hfront, Option.map_some, Option.getD_some]
  obtain ⟨others, last, hlast, hmore⟩ := exists_last_parameter query
  have hrun (hend : query.getLast? = some '?') :
      (query? (plainUrl url)).map parametersOf = some (others ++ [last ++ plainParameter]) := by
    rw [plainUrl_of_query h, if_pos (Or.inr (Or.inl hend)), query?_append hfront,
      Option.map_some, hmore _ (by decide)]
  refine ⟨⟨fun hswitched hend => ?_, fun hend => ?_⟩, fun hend => ⟨others, last, hlast, hrun hend⟩⟩
  · -- there is one parameter less than there should be
    have hne : ¬ last = [] := by
      have hempty := getLast?_parametersOf query
      rw [hlast, List.getLast?_concat, Option.some.injEq, hend] at hempty
      rw [hempty]
      rintro (rfl | he)
      · contradiction
      · exact absurd (Option.some.inj he) (by decide)
    have hquery := hswitched.parameters
    rw [hrun hend, hparameters, hlast, withoutEmptyEnd_concat, if_neg hne,
      Option.some.injEq] at hquery
    have hlength := congrArg List.length hquery
    simp at hlength
  · refine ⟨not_mem_plainUrl, ?_, ?_⟩
    · rw [plainUrl_of_query h, h, page_append hfront, page_append hfront]
    · rw [plainUrl_of_query h, query?_append hfront, Option.map_some, parametersOf_switched hend,
        hparameters]

end Plain

/-- The plain form of a url is the same page with the switch behind all parameters, unless the url
has no query and ends with an ampersand, or has a query that ends with a question mark. The switch
is part of the page then, or of the last parameter. A fragment is never left. -/
theorem switched_plainUrl_iff (url : Text) :
    '#' ∉ plainUrl url ∧
      (Switched url (plainUrl url) ↔
        (query? (resource url) = none → (resource url).getLast? ≠ some '&') ∧
          ∀ query ∈ query? (resource url), query.getLast? ≠ some '?') ∧
      (query? (resource url) = none → (resource url).getLast? = some '&' →
        query? (plainUrl url) = none) ∧
      ∀ query ∈ query? (resource url), query.getLast? = some '?' →
        ∃ others last, parametersOf query = others ++ [last] ∧
          (query? (plainUrl url)).map parametersOf = some (others ++ [last ++ plainParameter]) := by
  refine ⟨not_mem_plainUrl, ?_⟩
  rcases exists_query (resource url) with hpage | ⟨front, query, hsplit, hfront⟩
  · obtain ⟨hiff, hnone⟩ := switched_of_page hpage
    rw [query?_of_not_mem hpage, hiff]
    simpa using hnone
  · obtain ⟨hiff, hrun⟩ := switched_of_query hsplit hfront
    have hquery : query? (resource url) = some query := by rw [hsplit, query?_append hfront]
    rw [hquery, hiff]
    simpa using hrun

/-- Not every url has the switch for its last parameter in its plain form. -/
theorem not_always_switched : ¬ ∀ url : Text, Switched url (plainUrl url) := by
  intro h
  have hquery := (h "http://test.com/a&".toList).parameters
  have hnone : query? (plainUrl "http://test.com/a&".toList) = none := by decide
  rw [hnone] at hquery
  contradiction

end ImagePreview

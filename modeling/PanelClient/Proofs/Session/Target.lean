import Mathlib.Data.List.TakeWhile
import PanelClient.Proofs.Text.Percent
import PanelClient.Proofs.Text.Split
import PanelClient.Session.Expiry

/-!
# The route that goes along

A user whose session has expired is sent to the login route with the route that they were on in the
parameter `next`. The parameter is percent-encoded first, and every `%2F` in it is then turned back
into a slash. Only the escape of a slash reads `%2F`, so nothing else is changed and the route can be
read back.

* `ExpiryPolicy.writtenNext_eq` : to replace `%2F` is to let the slash stand for itself;
* `ExpiryPolicy.pathOf_target`, `ExpiryPolicy.query?_target` : the target is the login route with a
  query, if the login route has no query or fragment of its own;
* `ExpiryPolicy.target_remembers_route` : the route is in the target, and can be read back.
-/

namespace PanelClient

/-- The query of a route: what stands between the first `?` and a fragment. -/
def query? (route : String) : Option String :=
  match route.toList.dropWhile fun c => c != '?' && c != '#' with
  | '?' :: r => some (String.ofList (r.takeWhile (· != '#')))
  | _ => none

/-- The parameters of a query, each with its name and its value. -/
def parameters (query : String) : List (String × String) :=
  (split (· == '&') query.toList).map fun piece =>
    (String.ofList (piece.takeWhile (· != '=')),
      String.ofList ((piece.dropWhile (· != '=')).drop 1))

namespace ExpiryPolicy

open Percent

/-- Bytes that stand for themselves in the parameter `next`. -/
def staysInNext (b : UInt8) : Bool := isUnreserved b || b == 47

/-- Characters that stand for themselves in the parameter `next`. -/
def isReadable (c : Char) : Bool := c.isAlphanum || ['-', '_', '.', '~', '/'].contains c

/-- The login route has no query and no fragment. -/
def Bare (p : ExpiryPolicy) : Prop := '?' ∉ p.loginRoute.toList ∧ '#' ∉ p.loginRoute.toList

variable {p : ExpiryPolicy}

/-! ### Making slashes readable -/

theorem staysInNext_legible : Legible staysInNext := by
  unfold Legible
  apply forall_byte
  decide +kernel

theorem isReadable_of_staysInNext (b : UInt8) :
    staysInNext b = true → isReadable (Char.ofNat b.toNat) = true := by
  revert b
  apply forall_byte
  decide +kernel

/-- An occurrence of `%2F` begins with `%`. -/
theorem replaceFrom_cons_of_ne {c : Char} (hc : c ≠ '%') (r : List Char) :
    replaceFrom ['%', '2', 'F'] ['/'] 0 (c :: r) = c :: replaceFrom ['%', '2', 'F'] ['/'] 0 r := by
  simp [replaceFrom, hc.symm]

/-- The escape of a byte other than the slash is not `%2F`, and `%` occurs in it only in front. -/
theorem escape_cases (b : UInt8) : b ≠ 47 → ∃ x y, escape b = ['%', x, y] ∧ x ≠ '%' ∧ y ≠ '%' ∧
    ¬ ('2' = x ∧ 'F' = y) := by
  intro hb
  obtain ⟨x, y, hescape, hx, hy, hbyte⟩ := escape_digits b
  refine ⟨x, y, hescape, hx, hy, ?_⟩
  rintro ⟨rfl, rfl⟩
  exact hb (hbyte 2 15 rfl rfl)

/-- **To replace `%2F` is to let the slash stand for itself.** -/
theorem replace_write (bs : List UInt8) :
    replace ['%', '2', 'F'] ['/'] (write isUnreserved bs) = write staysInNext bs := by
  unfold replace
  induction bs with
  | nil => rfl
  | cons b bs ih =>
    rw [write_cons, write_cons, ← ih]
    by_cases hb : isUnreserved b = true
    · have hstays : staysInNext b = true := by simp [staysInNext, hb]
      rw [if_pos hb, if_pos hstays, List.singleton_append,
        replaceFrom_cons_of_ne (ne_percent_of_isUnreserved b hb), List.singleton_append]
    · by_cases hslash : b = 47
      · subst hslash
        rfl
      · have hstays : ¬ staysInNext b = true := by simp [staysInNext, hb, hslash]
        obtain ⟨x, y, hescape, hx, hy, hne⟩ := escape_cases b hslash
        have hother :
            ['%', '2', 'F'].isPrefixOf ('%' :: x :: y :: write isUnreserved bs) = false := by
          simpa [List.isPrefixOf] using hne
        rw [if_neg hb, if_neg hstays, hescape]
        simp only [List.cons_append, List.nil_append]
        rw [replaceFrom, if_neg (by simp [hother]), replaceFrom_cons_of_ne hx,
          replaceFrom_cons_of_ne hy]

theorem writtenNext_eq (route : String) :
    writtenNext route = write staysInNext route.toUTF8.toList := by
  rw [writtenNext, encode_toList, replace_write]

/-- `%2F` does not occur: every `%` begins the escape of a byte that does not stand for itself. -/
theorem not_infix_write (bs : List UInt8) : ¬ ['%', '2', 'F'] <:+: write staysInNext bs := by
  induction bs with
  | nil => simp [write]
  | cons b bs ih =>
    rw [write_cons]
    by_cases hb : staysInNext b = true
    · have hne : Char.ofNat b.toNat ≠ '%' := fun heq => by
        have := isReadable_of_staysInNext b hb
        rw [heq] at this
        exact absurd this (by decide)
      rw [if_pos hb, List.singleton_append, List.infix_cons_iff]
      simp [ih, hne.symm]
    · have hslash : b ≠ 47 := fun heq => hb (by simp [staysInNext, heq])
      obtain ⟨x, y, hescape, hx, hy, hne⟩ := escape_cases b hslash
      rw [if_neg hb, hescape]
      simp only [List.cons_append, List.nil_append, List.infix_cons_iff, List.cons_prefix_cons]
      simp [ih, hx.symm, hy.symm]
      simpa using hne

/-! ### The parts of the target -/

theorem target_toList (p : ExpiryPolicy) (route : String) :
    (p.target route).toList =
      p.loginRoute.toList ++ '?' :: (['n', 'e', 'x', 't', '='] ++ writtenNext route) := by
  simp [target]

theorem Bare.stays (h : p.Bare) {c : Char} (hc : c ∈ p.loginRoute.toList) :
    (c != '?' && c != '#') = true := by
  have hq : c ≠ '?' := fun heq => h.1 (heq ▸ hc)
  have hf : c ≠ '#' := fun heq => h.2 (heq ▸ hc)
  simp [hq, hf]

/-- The target is a route of the login page. -/
theorem pathOf_target (h : p.Bare) (route : String) : pathOf (p.target route) = p.loginRoute := by
  rw [pathOf, target_toList, List.takeWhile_append_of_pos fun c hc => h.stays hc]
  simp

/-- Characters that have a meaning in a route or its query do not stand in the parameter. -/
theorem not_mem_writtenNext {c : Char} (hc : c ∈ ['?', '#', '&', '=', '+', ' ']) (route : String) :
    c ∉ writtenNext route := by
  rw [writtenNext_eq]
  exact (written_write isReadable_of_staysInNext _).not_mem (by decide) hc

/-- The target has one query, which is the parameter. -/
theorem query?_target (h : p.Bare) (route : String) :
    query? (p.target route) = some ("next=" ++ String.ofList (writtenNext route)) := by
  have hall : (['n', 'e', 'x', 't', '='] ++ writtenNext route).takeWhile (· != '#') =
      ['n', 'e', 'x', 't', '='] ++ writtenNext route := by
    have hname : ∀ c ∈ ['n', 'e', 'x', 't', '='], (c != '#') = true := by simp
    rw [List.takeWhile_eq_self_iff]
    intro c hc
    rcases List.mem_append.1 hc with hc | hc
    · exact hname c hc
    · have hne : c ≠ '#' := fun heq => not_mem_writtenNext (by decide) route (heq ▸ hc)
      simpa using hne
  have hdrop : (p.target route).toList.dropWhile (fun c => c != '?' && c != '#') =
      '?' :: (['n', 'e', 'x', 't', '='] ++ writtenNext route) := by
    rw [target_toList, List.dropWhile_append_of_pos fun c hc => h.stays hc]
    simp
  rw [query?, hdrop]
  simp only [hall, String.ofList_append]

/-- The parameter is the only one. -/
theorem parameters_next (route : String) :
    parameters ("next=" ++ String.ofList (writtenNext route)) =
      [("next", String.ofList (writtenNext route))] := by
  have hlist : ("next=" ++ String.ofList (writtenNext route)).toList =
      ['n', 'e', 'x', 't'] ++ '=' :: writtenNext route := by simp
  have hsplit : split (· == '&') (['n', 'e', 'x', 't'] ++ '=' :: writtenNext route) =
      [['n', 'e', 'x', 't'] ++ '=' :: writtenNext route] := by
    refine split_of_forall fun c hc => ?_
    have hne : c ≠ '&' := by
      rintro rfl
      simp [not_mem_writtenNext (c := '&') (by decide) route] at hc
    simpa using hne
  rw [parameters, hlist, hsplit]
  rfl

/-- **The target remembers the route.** The target is the login route followed by `?next=` and a
written form of the route, from which the route can be read back: letters, digits, `-`, `_`, `.`,
`~`, `/` and well-formed escapes, none of them `%2F`, so that nothing in it has a meaning in a query.
Different routes have different targets; and if the login route has no query or fragment of its own,
it is the path of the target, and the written form is the value of its one parameter. -/
theorem target_remembers_route (p : ExpiryPolicy) (route : String) :
    (∃ next : String, p.target route = p.loginRoute ++ "?next=" ++ next ∧
      decode next = some route ∧
      Written isReadable next.toList ∧ ¬ ['%', '2', 'F'] <:+: next.toList ∧
      (∀ c ∈ ['?', '#', '&', '=', '+', ' '], c ∉ next.toList) ∧
      (p.Bare → pathOf (p.target route) = p.loginRoute ∧ '#' ∉ (p.target route).toList ∧
        ∃ query, query? (p.target route) = some query ∧ parameters query = [("next", next)])) ∧
    ∀ route', p.target route' = p.target route → route' = route := by
  have hdecode : ∀ route, decode (String.ofList (writtenNext route)) = some route := fun route => by
    rw [writtenNext_eq, decode_write staysInNext_legible]
  refine ⟨⟨String.ofList (writtenNext route), rfl, hdecode route, ?_, ?_, ?_, fun hbare => ?_⟩, ?_⟩
  · rw [String.toList_ofList, writtenNext_eq]
    exact written_write isReadable_of_staysInNext _
  · rw [String.toList_ofList, writtenNext_eq]
    exact not_infix_write _
  · intro c hc
    rw [String.toList_ofList]
    exact not_mem_writtenNext hc route
  · refine ⟨pathOf_target hbare route, ?_, _, query?_target hbare route, parameters_next route⟩
    rw [target_toList]
    simp [hbare.2, not_mem_writtenNext (c := '#') (by decide) route]
  · intro route' h
    have hlists := congrArg String.toList h
    rw [target_toList, target_toList] at hlists
    have hnext : writtenNext route' = writtenNext route := by simpa using hlists
    exact Option.some.inj (by rw [← hdecode route', hnext, hdecode route])

/-- A route with a query of its own. -/
example : ExpiryPolicy.standard.target "/a?b=1 %2F" = "/login?next=/a%3Fb%3D1%20%252F" := by
  decide +kernel

end ExpiryPolicy

end PanelClient

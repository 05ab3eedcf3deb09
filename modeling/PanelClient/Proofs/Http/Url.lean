import Mathlib.Data.List.TakeWhile
import Mathlib.Tactic.SplitIfs
import PanelClient.Http.Url
import PanelClient.Proofs.Text.Percent
import PanelClient.Proofs.Text.Split

/-!
# What is written behind a URL

Whoever writes a slash and more behind the text of a URL means a place below it. Here it is said what
comes of that when the text is read: the server stays the same, and what was written ends up behind
the path, unless there are dot segments in it, or the text had a query or a fragment already.

* `Path.Stays` : a segment is no dot segment; `Path.climb` : the segments in place after some others;
* `Url.pathOf_below` : segments that stay are added to the path;
* `Url.pathOf_dot`, `Url.pathOf_dots` : dot segments are not, and the second takes one away;
* `Url.parse_append` : the text before the slash decides on all but the end of the path;
* `Url.parse_below`, `Url.path_below_of_not_bare` : what comes of segments that stay;
* `Url.stays_encode_iff` : which names are dot segments, even if they are encoded.
-/

namespace PanelClient

/-! ### Beginnings -/

section Beginnings

variable {p : Char → Bool} {c : Char}

theorem takeWhile_append_cons (hc : p c = false) (l r : List Char) :
    (l ++ c :: r).takeWhile p = l.takeWhile p := by
  induction l with
  | nil => exact List.takeWhile_cons_of_neg (ne_true_of_eq_false hc)
  | cons d l ih => rw [List.cons_append, List.takeWhile_cons, List.takeWhile_cons, ih]

theorem takeWhile_append_of_mem (hc : p c = false) {l : List Char} (hmem : c ∈ l)
    (r : List Char) : (l ++ r).takeWhile p = l.takeWhile p := by
  obtain ⟨u, v, rfl⟩ := List.append_of_mem hmem
  rw [List.append_assoc, List.cons_append, takeWhile_append_cons hc, takeWhile_append_cons hc]

theorem dropWhile_append_cons (hc : p c = false) (l r : List Char) :
    (l ++ c :: r).dropWhile p = l.dropWhile p ++ c :: r := by
  induction l with
  | nil => exact List.dropWhile_cons_of_neg (ne_true_of_eq_false hc)
  | cons d l ih =>
    rw [List.cons_append, List.dropWhile_cons, List.dropWhile_cons]
    split_ifs
    · exact ih
    · rfl

theorem dropWhile_of_forall {l : List Char} (h : ∀ c ∈ l, p c = false) : l.dropWhile p = l := by
  cases l with
  | nil => rfl
  | cons c l => exact List.dropWhile_cons_of_neg (ne_true_of_eq_false (h c List.mem_cons_self))

theorem mem_dropWhile_iff (hc : p c = false) {l : List Char} : c ∈ l.dropWhile p ↔ c ∈ l := by
  constructor
  · intro h
    exact List.dropWhile_subset p h
  · intro h
    rw [← List.takeWhile_append_dropWhile (p := p) (l := l), List.mem_append] at h
    have hnone : c ∉ l.takeWhile p := fun htake =>
      ne_true_of_eq_false hc (List.mem_takeWhile_imp htake)
    exact h.resolve_left hnone

end Beginnings

/-! ### Segments -/

namespace Path

variable {read : List Char → List Char} {segments rest : List (List Char)} {s : List Char}

/-- The segment is no dot segment. -/
def Stays (read : List Char → List Char) (s : List Char) : Prop :=
  read s ≠ ['.'] ∧ read s ≠ ['.', '.']

instance (read : List Char → List Char) : DecidablePred (Stays read) := fun _ =>
  inferInstanceAs (Decidable (_ ∧ _))

/-- The segments in place after some that are not the last, the last one first. -/
def climb (read : List Char → List Char) :
    List (List Char) → List (List Char) → List (List Char)
  | above, [] => above
  | above, s :: rest =>
    if read s = ['.', '.'] then climb read above.tail rest
    else if read s = ['.'] then climb read above rest
    else climb read (s :: above) rest

theorem climb_append (above segments rest : List (List Char)) :
    climb read above (segments ++ rest) = climb read (climb read above segments) rest := by
  induction segments generalizing above with
  | nil => rfl
  | cons s segments ih =>
    rw [List.cons_append, climb, climb]
    split_ifs
    · exact ih above.tail
    · exact ih above
    · exact ih (s :: above)

theorem climb_of_stays (h : Stays read s) (above : List (List Char)) :
    climb read above [s] = s :: above := by
  rw [climb, if_neg h.2, if_neg h.1, climb]

theorem resolveFrom_append (hrest : rest ≠ []) (above segments : List (List Char)) :
    resolveFrom read above (segments ++ rest) =
      resolveFrom read (climb read above segments) rest := by
  induction segments generalizing above with
  | nil => rfl
  | cons s segments ih =>
    -- none of these segments is the last one, so that no slash is left behind
    have hmore : (segments ++ rest).isEmpty = false :=
      List.isEmpty_eq_false_iff.2 (List.append_ne_nil_of_right_ne_nil segments hrest)
    rw [List.cons_append, resolveFrom, climb]
    simp only [hmore, Bool.false_eq_true, if_false]
    split_ifs
    · exact ih above.tail
    · exact ih above
    · exact ih (s :: above)

theorem resolveFrom_of_stays (h : ∀ s ∈ segments, Stays read s) (above : List (List Char)) :
    resolveFrom read above segments = above.reverse ++ segments := by
  induction segments generalizing above with
  | nil => exact (List.append_nil _).symm
  | cons s segments ih =>
    obtain ⟨hdot, hdots⟩ := h s List.mem_cons_self
    rw [resolveFrom, if_neg hdots, if_neg hdot, ih fun s hs => h s (List.mem_cons_of_mem _ hs),
      List.reverse_cons, List.append_assoc, List.singleton_append]

theorem join_append (segments rest : List (List Char)) :
    join (segments ++ rest) = join segments ++ join rest := List.flatMap_append

end Path

namespace Url

/-! ### Paths -/

/-- The text can stand in a path as it is, and its slashes are straight. -/
def Plain (text : List Char) : Prop := ∀ c ∈ text, standsInPath c = true ∧ c ≠ '\\'

instance : DecidablePred Plain := fun text => List.decidableBAll _ text

/-- The segments of a text, written as they may stand in a path. -/
def segmentsOf (text : List Char) : List (List Char) :=
  (split isSlash text).map (escape standsInPath)

/-- The segments in place above what is written behind a text and a slash, the last one first. -/
def above : List Char → List (List Char)
  | [] => []
  | _ :: r => Path.climb readDots [] (segmentsOf r)

variable {rest s : List Char}

theorem Plain.eq_slash (h : Plain rest) {c : Char} (hc : c ∈ rest) (hslash : isSlash c = true) :
    c = '/' := by
  rw [isSlash, Bool.or_eq_true, beq_iff_eq, beq_iff_eq] at hslash
  exact hslash.resolve_right (h c hc).2

theorem escape_of_stands {stands : Char → Bool} {text : List Char}
    (h : ∀ c ∈ text, stands c = true) : escape stands text = text := by
  induction text with
  | nil => rfl
  | cons c text ih =>
    rw [escape, List.flatMap_cons, if_pos (h c List.mem_cons_self)]
    exact congrArg (c :: ·) (ih fun c hc => h c (List.mem_cons_of_mem _ hc))

theorem segmentsOf_of_plain (h : Plain rest) : segmentsOf rest = split isSlash rest := by
  have hpiece : ∀ p ∈ split isSlash rest, escape standsInPath p = id p := fun p hp =>
    escape_of_stands fun c hc => (h c (mem_of_mem_split hp hc)).1
  exact (List.map_congr_left hpiece).trans (List.map_id _)

theorem segmentsOf_append_slash (text rest : List Char) :
    segmentsOf (text ++ '/' :: rest) = segmentsOf text ++ segmentsOf rest := by
  rw [segmentsOf, split_append_cons rfl, List.map_append]
  rfl

theorem segmentsOf_ne_nil (text : List Char) : segmentsOf text ≠ [] := by
  obtain ⟨p, ps, h⟩ := exists_split isSlash text
  rw [segmentsOf, h]
  nofun

/-- Plain segments and the slashes between them make up the text again. -/
theorem join_split (h : Plain rest) : Path.join (split isSlash rest) = '/' :: rest := by
  induction rest with
  | nil => rfl
  | cons c r ih =>
    have hr := ih fun d hd => h d (List.mem_cons_of_mem c hd)
    cases hc : isSlash c with
    | true =>
      obtain rfl := h.eq_slash List.mem_cons_self hc
      rw [split_cons_of_pos hc]
      exact congrArg ('/' :: ·) hr
    | false =>
      obtain ⟨p, ps, hp⟩ := exists_split isSlash r
      rw [hp] at hr
      rw [split_cons_of_neg hc hp]
      exact congrArg (fun t => '/' :: c :: t) (List.cons.inj hr).2

theorem above_append (x s : List Char) :
    above (x ++ '/' :: s) = Path.climb readDots (above x) (segmentsOf s) := by
  cases x with
  | nil => rfl
  | cons c r =>
    rw [List.cons_append, above, segmentsOf_append_slash, Path.climb_append]
    rfl

theorem pathOf_append (x rest : List Char) :
    pathOf (x ++ '/' :: rest) = Path.join (Path.resolveFrom readDots (above x) (segmentsOf rest)) := by
  cases x with
  | nil => rfl
  | cons c r =>
    have hsegments : pathOf (c :: r ++ '/' :: rest) =
        Path.join (Path.resolveFrom readDots [] (segmentsOf (r ++ '/' :: rest))) := rfl
    rw [hsegments, segmentsOf_append_slash, Path.resolveFrom_append (segmentsOf_ne_nil rest)]
    rfl

theorem pathOf_slash (x : List Char) : pathOf (x ++ ['/']) = Path.join (above x).reverse ++ ['/'] := by
  have hstays : ∀ s ∈ segmentsOf [], Path.Stays readDots s := by
    rintro s hs
    cases List.mem_singleton.1 hs
    exact ⟨nofun, nofun⟩
  rw [pathOf_append, Path.resolveFrom_of_stays hstays, Path.join_append]
  rfl

/-- Segments that stay are added to the path. -/
theorem pathOf_below (hplain : Plain rest) (hstays : ∀ s ∈ split isSlash rest, Path.Stays readDots s)
    (x : List Char) : pathOf (x ++ '/' :: rest) = pathOf (x ++ ['/']) ++ rest := by
  rw [pathOf_append, segmentsOf_of_plain hplain, Path.resolveFrom_of_stays hstays, Path.join_append,
    join_split hplain, pathOf_slash, List.append_assoc]
  rfl

/-- A single dot at the end does nothing. -/
theorem pathOf_dot (x : List Char) : pathOf (x ++ ['/', '.']) = pathOf (x ++ ['/']) := by
  rw [pathOf_append, pathOf_append]
  rfl

/-- Two dots at the end take the segment before them away. -/
theorem pathOf_dots (hplain : Plain s) (hslash : '/' ∉ s) (hstays : Path.Stays readDots s)
    (x : List Char) : pathOf (x ++ '/' :: (s ++ ['/', '.', '.'])) = pathOf (x ++ ['/']) := by
  have hpiece : split isSlash s = [s] := by
    refine split_of_forall fun c hc => Bool.eq_false_iff.2 fun hc' => hslash ?_
    exact hplain.eq_slash hc hc' ▸ hc
  have habove : above (x ++ '/' :: s) = s :: above x := by
    rw [above_append, segmentsOf_of_plain hplain, hpiece, Path.climb_of_stays hstays]
  have hsplit : x ++ '/' :: (s ++ ['/', '.', '.']) = x ++ '/' :: s ++ '/' :: ['.', '.'] := by simp
  rw [hsplit, pathOf_append, habove, pathOf_append]
  rfl

/-! ### Texts -/

/-- The text of a URL has neither a query nor a fragment. -/
def Bare (text : String) : Prop := '?' ∉ text.toList ∧ '#' ∉ text.toList

instance : DecidablePred Bare := fun _ => inferInstanceAs (Decidable (_ ∧ _))

/-- The authority of a URL ends here. -/
def endsAuthority (c : Char) : Bool := isSlash c || c == '?' || c == '#'

/-- The path of a URL does not end here. -/
def isInPath (c : Char) : Bool := c != '?' && c != '#'

/-- The path of a URL of which this text stands behind the authority. -/
def pathIn (text : List Char) : String := String.ofList (pathOf (text.takeWhile isInPath))

/-- The query of a URL of which this text stands behind the authority. -/
def queryIn (text : List Char) : Option String :=
  let query : Option (List Char) :=
    match text.dropWhile isInPath with
    | '?' :: q => some (q.takeWhile (· != '#'))
    | _ => none
  query.map fun q => String.ofList (escape standsInQuery q)

/-- The URL of a scheme, an authority and the text behind it. -/
def ofTexts (scheme : Scheme) (authority text : List Char) : Option Url := do
  let host ← host? ((afterUser authority).takeWhile (· != ':'))
  let port ← port? scheme.port (((afterUser authority).dropWhile (· != ':')).drop 1)
  return { scheme, host, port, path := pathIn text, query := queryIn text }

variable {b : String} {root : Url}

/-- The URL of a scheme and the text behind its colon. -/
def ofRest (scheme : Scheme) (r : List Char) : Option Url :=
  ofTexts scheme ((r.dropWhile isSlash).takeWhile (!endsAuthority ·))
    ((r.dropWhile isSlash).dropWhile (!endsAuthority ·))

theorem parse_eq (text : String) :
    parse text = (scheme? (clean text.toList)).bind fun p => ofRest p.1 p.2 := rfl

/-- The text behind the authority makes a difference to path and query only. -/
theorem ofTexts_of_eq_some {scheme : Scheme} {authority text : List Char}
    (h : ofTexts scheme authority text = some root) :
    root.path = pathIn text ∧ root.query = queryIn text ∧ ∀ text', ofTexts scheme authority text' =
      some { root with path := pathIn text', query := queryIn text' } := by
  obtain ⟨host, hhost, h⟩ := Option.bind_eq_some_iff.1 h
  obtain ⟨port, hport, h⟩ := Option.bind_eq_some_iff.1 h
  cases h
  refine ⟨rfl, rfl, fun text' => ?_⟩
  rw [ofTexts, hhost, hport]
  rfl

/-- The character is blank or a control character. -/
def isBlank (c : Char) : Bool := c ≤ ' '

/-- The character is neither a line break nor a tab. -/
def isKept (c : Char) : Bool := c != '\t' && c != '\n' && c != '\r'

theorem clean_eq (text : List Char) : clean text =
    (((text.dropWhile isBlank).reverse.dropWhile isBlank).reverse).filter isKept := rfl

theorem isKept_of_not_isBlank {c : Char} (hc : isBlank c = false) : isKept c = true := by
  have hne : c ≠ '\t' ∧ c ≠ '\n' ∧ c ≠ '\r' := by
    refine ⟨?_, ?_, ?_⟩ <;> rintro rfl <;> cases hc
  simpa [isKept, and_assoc] using hne

/-- A text that ends with visible characters is cleaned in front only. -/
theorem clean_append (text : List Char) {rest : List Char} (h : ∀ c ∈ rest, isBlank c = false) :
    clean (text ++ '/' :: rest) = (text.dropWhile isBlank).filter isKept ++ '/' :: rest := by
  have hslash : isBlank '/' = false := rfl
  have hrest : ('/' :: rest).filter isKept = '/' :: rest := by
    rw [List.filter_eq_self, List.forall_mem_cons]
    exact ⟨rfl, fun c hc => isKept_of_not_isBlank (h c hc)⟩
  have hend : rest.reverse.dropWhile isBlank = rest.reverse :=
    dropWhile_of_forall fun c hc => h c (List.mem_reverse.1 hc)
  have hreverse : ∀ l : List Char,
      (l ++ '/' :: rest).reverse = rest.reverse ++ '/' :: l.reverse := by simp
  rw [clean_eq, dropWhile_append_cons hslash, hreverse, dropWhile_append_cons hslash, hend,
    ← hreverse, List.reverse_reverse, List.filter_append, hrest]

theorem clean_below (b : String) {rest : String} (h : ∀ c ∈ rest.toList, isBlank c = false) :
    clean (b ++ "/" ++ rest).toList =
      (b.toList.dropWhile isBlank).filter isKept ++ '/' :: rest.toList := by
  rw [String.toList_append, String.toList_append, List.append_assoc]
  exact clean_append _ h

theorem isInPath_eq_false_iff {c : Char} : isInPath c = false ↔ c = '?' ∨ c = '#' := by
  rw [isInPath, Bool.and_eq_false_iff, bne_eq_false_iff_eq, bne_eq_false_iff_eq]

theorem bare_iff : Bare b ↔ ∀ c, isInPath c = false → c ∉ b.toList := by
  constructor
  · rintro ⟨hquery, hfragment⟩ c hc
    rcases isInPath_eq_false_iff.1 hc with rfl | rfl
    · exact hquery
    · exact hfragment
  · intro h
    exact ⟨h '?' rfl, h '#' rfl⟩

theorem pathIn_of_forall {text : List Char} (h : ∀ c ∈ text, isInPath c = true) :
    pathIn text = String.ofList (pathOf text) := by
  rw [pathIn, List.takeWhile_eq_self_iff.2 h]

theorem queryIn_of_forall {text : List Char} (h : ∀ c ∈ text, isInPath c = true) :
    queryIn text = none := by
  rw [queryIn, List.dropWhile_eq_nil_iff.2 h]
  rfl

theorem mem_clean_iff {text : List Char} {c : Char} (hc : isInPath c = false) :
    c ∈ (text.dropWhile isBlank).filter isKept ↔ c ∈ text := by
  have hvisible : isBlank c = false := by
    rcases isInPath_eq_false_iff.1 hc with rfl | rfl <;> rfl
  rw [List.mem_filter, mem_dropWhile_iff hvisible]
  exact and_iff_left (isKept_of_not_isBlank hvisible)

theorem scheme?_of_not_mem {text : List Char} (h : ':' ∉ text) : scheme? text = none := by
  have hnil : text.dropWhile (· != ':') = [] := by
    rw [List.dropWhile_eq_nil_iff]
    intro c hc
    exact bne_iff_ne.2 fun heq => h (heq ▸ hc)
  rw [scheme?, hnil]

theorem scheme?_of_colon {name : List Char} (hname : ':' ∉ name) (r : List Char) :
    scheme? (name ++ ':' :: r) =
      (Scheme.ofName? (String.ofList (name.map Char.toLower))).map (·, r) := by
  have hbefore : ∀ c ∈ name, (c != ':') = true := fun c hc =>
    bne_iff_ne.2 fun heq => hname (heq ▸ hc)
  have htake : (name ++ ':' :: r).takeWhile (· != ':') = name := by
    rw [takeWhile_append_cons (by decide), List.takeWhile_eq_self_iff.2 hbefore]
  have hdrop : (name ++ ':' :: r).dropWhile (· != ':') = ':' :: r := by
    rw [dropWhile_append_cons (by decide), List.dropWhile_eq_nil_iff.2 hbefore, List.nil_append]
  rw [scheme?, htake, hdrop]
  cases Scheme.ofName? (String.ofList (name.map Char.toLower)) <;> rfl

theorem eq_name_of_ofName? {s : String} {scheme : Scheme} (h : Scheme.ofName? s = some scheme) :
    s = scheme.name := by
  unfold Scheme.ofName? at h
  split at h <;> cases h <;> rfl

/-- The name of a scheme has neither of the characters at which a path ends. -/
theorem not_mem_of_ofName? {name : List Char} {scheme : Scheme} {c : Char}
    (hc : isInPath c = false)
    (h : Scheme.ofName? (String.ofList (name.map Char.toLower)) = some scheme) : c ∉ name := by
  have hname : name.map Char.toLower = scheme.name.toList := by
    rw [← eq_name_of_ofName? h, String.toList_ofList]
  have hlower : c.toLower = c := by
    rcases isInPath_eq_false_iff.1 hc with rfl | rfl <;> rfl
  have hscheme : c ∉ scheme.name.toList := by
    rcases isInPath_eq_false_iff.1 hc with rfl | rfl <;> cases scheme <;> decide
  intro hmem
  exact hscheme (hname ▸ List.mem_map.2 ⟨c, hmem, hlower⟩)

/-- A scheme stands before a colon, and so before a slash that is the last character. -/
theorem scheme?_append {text r : List Char} {scheme : Scheme}
    (h : scheme? (text ++ ['/']) = some (scheme, r)) : ∃ y, r = y ++ ['/'] ∧
      (∀ c, isInPath c = false → (c ∈ y ↔ c ∈ text)) ∧
      ∀ rest, scheme? (text ++ '/' :: rest) = some (scheme, y ++ '/' :: rest) := by
  have hcolon : ':' ∈ text := by
    by_contra hnone
    rw [scheme?_of_not_mem (by simp [hnone])] at h
    cases h
  obtain ⟨name, y, rfl, hname⟩ := List.eq_append_cons_of_mem hcolon
  rw [List.append_assoc, List.cons_append, scheme?_of_colon hname, Option.map_eq_some_iff] at h
  obtain ⟨_, hscheme, ⟨⟩⟩ := h
  refine ⟨y, rfl, fun c hc => ?_, fun rest => ?_⟩
  · have hne : c ≠ ':' := by
      rintro rfl
      cases hc
    simp [not_mem_of_ofName? hc hscheme, hne]
  · rw [List.append_assoc, List.cons_append, scheme?_of_colon hname, hscheme]
    rfl

/-- A URL has a host: more than slashes stands between its scheme and the last slash. -/
theorem host_ne_nil {y : List Char} {scheme : Scheme}
    (h : ofRest scheme (y ++ ['/']) = some root) : (y.dropWhile isSlash).isEmpty = false := by
  rw [← Bool.not_eq_true]
  intro hempty
  have hnil : (y ++ ['/']).dropWhile isSlash = [] := by
    rw [List.dropWhile_append, if_pos hempty]
    rfl
  have hnone : ∀ text, ofTexts scheme [] text = none := fun _ => rfl
  rw [ofRest, hnil, List.takeWhile_nil, hnone] at h
  cases h

/-- What stands before a slash behind the host decides on all but the end of the path. -/
theorem ofRest_append {y : List Char} {scheme : Scheme}
    (h : ofRest scheme (y ++ ['/']) = some root) : ∃ x : List Char,
    (∀ c, isInPath c = false → (c ∈ x ↔ c ∈ y)) ∧
    root.path = pathIn (x ++ ['/']) ∧ root.query = queryIn (x ++ ['/']) ∧
    ∀ rest, ofRest scheme (y ++ '/' :: rest) = some { root with
      path := pathIn (x ++ '/' :: rest), query := queryIn (x ++ '/' :: rest) } := by
  have hends : (!endsAuthority '/') = false := rfl
  have hrest : ∀ rest, ofRest scheme (y ++ '/' :: rest) =
      ofTexts scheme ((y.dropWhile isSlash).takeWhile (!endsAuthority ·))
        ((y.dropWhile isSlash).dropWhile (!endsAuthority ·) ++ '/' :: rest) := by
    intro rest
    have hslashes : (y ++ '/' :: rest).dropWhile isSlash = y.dropWhile isSlash ++ '/' :: rest := by
      rw [List.dropWhile_append, host_ne_nil h, if_neg Bool.false_ne_true]
    rw [ofRest, hslashes, takeWhile_append_cons hends, dropWhile_append_cons hends]
  rw [hrest] at h
  obtain ⟨hpath, hquery, hall⟩ := ofTexts_of_eq_some h
  refine ⟨_, fun c hc => ?_, hpath, hquery, fun rest => (hrest rest).trans (hall _)⟩
  obtain ⟨hend, hslash⟩ : (!endsAuthority c) = false ∧ isSlash c = false := by
    rcases isInPath_eq_false_iff.1 hc with rfl | rfl <;> exact ⟨rfl, rfl⟩
  rw [mem_dropWhile_iff hend, mem_dropWhile_iff hslash]

/-- **What stands before the slash decides on the server**, and on the path up to that slash. -/
theorem parse_append (h : parse (b ++ "/") = some root) : ∃ x : List Char,
    (∀ c, isInPath c = false → (c ∈ x ↔ c ∈ b.toList)) ∧
    root.path = pathIn (x ++ ['/']) ∧ root.query = queryIn (x ++ ['/']) ∧
    ∀ rest : String, (∀ c ∈ rest.toList, isBlank c = false) →
      parse (b ++ "/" ++ rest) = some { root with
        path := pathIn (x ++ '/' :: rest.toList), query := queryIn (x ++ '/' :: rest.toList) } := by
  have hroot : clean (b ++ "/" ++ "").toList =
      (b.toList.dropWhile isBlank).filter isKept ++ ['/'] := clean_below b nofun
  rw [String.append_empty] at hroot
  rw [parse_eq, hroot] at h
  obtain ⟨⟨scheme, r⟩, hscheme, h⟩ := Option.bind_eq_some_iff.1 h
  obtain ⟨y, rfl, hy, hschemes⟩ := scheme?_append hscheme
  obtain ⟨x, hx, hpath, hquery, hall⟩ := ofRest_append h
  refine ⟨x, fun c hc => ?_, hpath, hquery, fun rest hrest => ?_⟩
  · rw [hx c hc, hy c hc, mem_clean_iff hc]
  · rw [parse_eq, clean_below b hrest, hschemes, Option.bind_some]
    exact hall _

/-! ### Below a URL -/

theorem Plain.isBlank_eq (h : Plain rest) {c : Char} (hc : c ∈ rest) : isBlank c = false := by
  have hstands := (h c hc).1
  simp only [standsInPath, stands, Bool.and_eq_true, decide_eq_true_eq] at hstands
  exact decide_eq_false (Char.not_le.2 hstands.1.1)

theorem Plain.isInPath_eq (h : Plain rest) {c : Char} (hc : c ∈ rest) : isInPath c = true := by
  by_contra hnot
  have hstands := (h c hc).1
  rcases isInPath_eq_false_iff.1 (eq_false_of_ne_true hnot) with rfl | rfl <;> cases hstands

theorem Plain.append_text {s t : String} (hs : Plain s.toList) (ht : Plain t.toList) :
    Plain (s ++ t).toList := by
  intro c hc
  rw [String.toList_append, List.mem_append] at hc
  exact hc.elim (hs c) (ht c)

theorem plain_slash : Plain "/".toList := by decide +kernel

theorem plain_dot : Plain "/.".toList := by decide +kernel

theorem plain_dots : Plain "/..".toList := by decide +kernel

/-- **Below a URL without query and fragment** only the path is another one. -/
theorem parse_below_bare (h : parse (b ++ "/") = some root) (hbare : Bare b) : ∃ x : List Char,
    root.path = String.ofList (pathOf (x ++ ['/'])) ∧ ∀ rest : String, Plain rest.toList →
      parse (b ++ "/" ++ rest) =
        some { root with path := String.ofList (pathOf (x ++ '/' :: rest.toList)) } := by
  obtain ⟨x, hx, hpath, hquery, hall⟩ := parse_append h
  have hin : ∀ rest : List Char, Plain rest → ∀ c ∈ x ++ '/' :: rest, isInPath c = true := by
    intro rest hplain c hc
    by_contra hend
    rw [Bool.not_eq_true] at hend
    rcases List.mem_append.1 hc with hc | hc
    · exact bare_iff.1 hbare c hend ((hx c hend).1 hc)
    · rcases List.mem_cons.1 hc with rfl | hc
      · cases hend
      · exact ne_true_of_eq_false hend (hplain.isInPath_eq hc)
  have hnil := hin [] nofun
  refine ⟨x, hpath.trans (pathIn_of_forall hnil), fun rest hplain => ?_⟩
  have hrest := hin rest.toList hplain
  rw [hall rest fun c hc => hplain.isBlank_eq hc, pathIn_of_forall hrest, queryIn_of_forall hrest,
    hquery, queryIn_of_forall hnil]

/-- Segments that stay are added to the path. -/
theorem parse_below (h : parse (b ++ "/") = some root) (hbare : Bare b) {rest : String}
    (hplain : Plain rest.toList) (hstays : ∀ s ∈ split isSlash rest.toList, Path.Stays readDots s) :
    parse (b ++ "/" ++ rest) = some { root with path := root.path ++ rest } := by
  obtain ⟨x, hpath, hall⟩ := parse_below_bare h hbare
  rw [hall rest hplain, pathOf_below hplain hstays, String.ofList_append, String.ofList_toList,
    ← hpath]

/-- A single dot behind a slash is not there. -/
theorem parse_below_dot (h : parse (b ++ "/") = some root) (hbare : Bare b) {rest : String}
    (hplain : Plain rest.toList) :
    parse (b ++ "/" ++ (rest ++ "/.")) = parse (b ++ "/" ++ (rest ++ "/")) := by
  obtain ⟨x, -, hall⟩ := parse_below_bare h hbare
  have hpath : pathOf (x ++ '/' :: (rest.toList ++ ['/', '.'])) =
      pathOf (x ++ '/' :: (rest.toList ++ ['/'])) := by
    simpa using pathOf_dot (x ++ '/' :: rest.toList)
  rw [hall _ (hplain.append_text plain_dot), hall _ (hplain.append_text plain_slash),
    String.toList_append, String.toList_append]
  exact congrArg (fun path => some { root with path := String.ofList path }) hpath

/-- Two dots behind a slash take the segment before them away. -/
theorem parse_below_dots (h : parse (b ++ "/") = some root) (hbare : Bare b) {rest s : String}
    (hplain : Plain rest.toList) (hs : Plain s.toList) (hslash : '/' ∉ s.toList)
    (hstays : Path.Stays readDots s.toList) :
    parse (b ++ "/" ++ (rest ++ "/" ++ s ++ "/..")) = parse (b ++ "/" ++ (rest ++ "/")) := by
  obtain ⟨x, -, hall⟩ := parse_below_bare h hbare
  have hpath : pathOf (x ++ '/' :: ((rest.toList ++ ['/'] ++ s.toList) ++ ['/', '.', '.'])) =
      pathOf (x ++ '/' :: (rest.toList ++ ['/'])) := by
    simpa using pathOf_dots hs hslash hstays (x ++ '/' :: rest.toList)
  have hdeep := (hplain.append_text plain_slash).append_text hs
  rw [hall _ (hdeep.append_text plain_dots), hall _ (hplain.append_text plain_slash)]
  simp only [String.toList_append]
  exact congrArg (fun path => some { root with path := String.ofList path }) hpath

/-- With a query or a fragment in the text before it, nothing is added to the path. -/
theorem path_below_of_not_bare (h : parse (b ++ "/") = some root) (hbare : ¬ Bare b)
    {rest : String} (hplain : Plain rest.toList) :
    (parse (b ++ "/" ++ rest)).map Url.path = some root.path := by
  obtain ⟨x, hx, hpath, -, hall⟩ := parse_append h
  obtain ⟨c, hc, hmem⟩ : ∃ c, isInPath c = false ∧ c ∈ b.toList := by
    simpa [bare_iff] using hbare
  have hin := (hx c hc).2 hmem
  rw [hall rest fun c hc => hplain.isBlank_eq hc, Option.map_some, hpath, pathIn, pathIn,
    takeWhile_append_of_mem hc hin, takeWhile_append_of_mem hc hin]

/-! ### Encoded texts -/

theorem readDots_cons_of_ne {c : Char} (hc : c ≠ '%') (r : List Char) :
    readDots (c :: r) = c :: readDots r := by
  rw [readDots]
  all_goals
    rintro r' rfl
    exact absurd rfl hc

theorem readDots_escape {x y : Char} (h : ¬ (x = '2' ∧ (y = 'e' ∨ y = 'E'))) (r : List Char) :
    readDots ('%' :: x :: y :: r) = '%' :: readDots (x :: y :: r) := by
  rw [readDots]
  all_goals
    rintro r' - ⟨⟩
    exact h ⟨rfl, by simp⟩

/-- A dot stands for itself, so that no escape in an encoded text is that of a dot. -/
theorem readDots_write (bs : List UInt8) :
    readDots (Percent.write Percent.isUnreserved bs) = Percent.write Percent.isUnreserved bs := by
  induction bs with
  | nil => rfl
  | cons b bs ih =>
    rw [Percent.write_cons]
    split_ifs with hb
    · rw [List.singleton_append, readDots_cons_of_ne (Percent.ne_percent_of_isUnreserved b hb), ih]
    · obtain ⟨x, y, hescape, hx, hy, hbyte⟩ := Percent.escape_digits b
      have hdot : ¬ (x = '2' ∧ (y = 'e' ∨ y = 'E')) := by
        rintro ⟨rfl, rfl | rfl⟩
        · exact hb (hbyte 2 14 rfl rfl ▸ rfl)
        · exact hb (hbyte 2 14 rfl rfl ▸ rfl)
      rw [hescape]
      simp only [List.cons_append, List.nil_append]
      rw [readDots_escape hdot, readDots_cons_of_ne hx, readDots_cons_of_ne hy, ih]

/-- An encoded text is a dot segment if it is one before it is encoded. -/
theorem stays_encode_iff {name : String} :
    Path.Stays readDots (Percent.encode name).toList ↔ name ≠ "." ∧ name ≠ ".." := by
  have hread : readDots (Percent.encode name).toList = (Percent.encode name).toList := by
    rw [Percent.encode_toList, readDots_write]
  have hname : ∀ dots : String, Percent.encode dots = dots →
      ((Percent.encode name).toList = dots.toList ↔ name = dots) := by
    intro dots hdots
    rw [String.toList_inj]
    exact ⟨fun h => Percent.encode_injective (h.trans hdots.symm), fun h => h ▸ hdots⟩
  have hdot := hname "." (by decide +kernel)
  have hdots := hname ".." (by decide +kernel)
  rw [Path.Stays, hread]
  exact and_congr (not_congr hdot) (not_congr hdots)

/-- An encoded text can stand in a path, and no slash is in it. -/
theorem encode_inSegment (name : String) {c : Char} (hc : c ∈ (Percent.encode name).toList) :
    standsInPath c = true ∧ isSlash c = false := by
  have hbyte : ∀ b, (Percent.encodeByte b).all (fun c => standsInPath c && !isSlash c) = true := by
    apply Percent.forall_byte
    decide +kernel
  simpa using List.all_eq_true.1 (Percent.all_encode hbyte name) c hc

theorem plain_encode (name : String) : Plain (Percent.encode name).toList := by
  intro c hc
  obtain ⟨hstands, hslash⟩ := encode_inSegment name hc
  refine ⟨hstands, ?_⟩
  rintro rfl
  cases hslash

end Url

end PanelClient

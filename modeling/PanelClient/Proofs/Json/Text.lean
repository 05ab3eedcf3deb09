import PanelClient.Proofs.Json.Literal

/-!
# The text of a value and its tree

A value is written compactly, and what is written is read as the tree `Value.doc`. Numbers that are
not whole are left aside here: the texts of binary64 numbers are another matter.

* `Value.foldl_scan_renderChars` : a reader that awaits a value takes the text of one and puts its
  tree in place;
* `Doc.ofText_render` : the text of a value is a whole text, and its tree is `Value.doc`.
-/

namespace PanelClient.Json

namespace Value

mutual

/-- The tree of the text of a value of which all numbers are whole. -/
def doc : Value → Doc
  | .null => .null
  | .bool b => .bool b
  | .number (.int i) => .number (.ofInt i)
  | .number (.real _) => .null
  | .string s => .string (s.toList.map Piece.written)
  | .array items => .array (docItems items) .closed
  | .object members => .object (docMembers members) .closed

/-- The trees of items. -/
def docItems : List Value → List Doc
  | [] => []
  | v :: vs => doc v :: docItems vs

/-- The keys and trees of members. -/
def docMembers : List (String × Value) → List (List Piece × Doc)
  | [] => []
  | (k, v) :: ms => (k.toList.map Piece.written, doc v) :: docMembers ms

end

mutual

/-- All numbers in a value are whole. -/
def isWhole : Value → Bool
  | .null => true
  | .bool _ => true
  | .number (.int _) => true
  | .number (.real _) => false
  | .string _ => true
  | .array items => areWhole items
  | .object members => membersWhole members

/-- All numbers in the items are whole. -/
def areWhole : List Value → Bool
  | [] => true
  | v :: vs => isWhole v && areWhole vs

/-- All numbers in the members are whole. -/
def membersWhole : List (String × Value) → Bool
  | [] => true
  | (_, v) :: ms => isWhole v && membersWhole ms

end

end Value

namespace Reader

/-- A value must follow, inside the open frames `fs`. -/
def Awaits (fs : List Frame) (q : Reader) : Prop := ∀ t, t ≠ .closeArray → q.step t = start fs t

/-- A key must follow, in an object with the given members. -/
def AwaitsKey (members : List (List Piece × Doc)) (fs : List Frame) (q : Reader) : Prop :=
  ∀ ps, q.step (.string ps) = .colon fs members ps

theorem awaits_value (fs : List Frame) : Awaits fs (.value fs) := fun _ _ => rfl

theorem awaits_firstItem (fs : List Frame) : Awaits fs (.firstItem fs) := fun t ht => by
  cases t <;> first | rfl | exact absurd rfl ht

theorem awaits_nextItem (fs : List Frame) : Awaits fs (.nextItem fs) := fun t ht => by
  cases t <;> first | rfl | exact absurd rfl ht

theorem awaitsKey_firstKey (members : List (List Piece × Doc)) (fs : List Frame) :
    AwaitsKey members fs (.firstKey (.object members :: fs)) := fun _ => rfl

theorem awaitsKey_nextKey (members : List (List Piece × Doc)) (fs : List Frame) :
    AwaitsKey members fs (.nextKey (.object members :: fs)) := fun _ => rfl

end Reader

namespace Value

open Reader

mutual

/-- **A reader that awaits a value takes the text of one** and puts its tree in place. -/
theorem foldl_scan_renderChars (v : Value) (hv : v.isWhole = true) {fs : List Frame} {q : Reader}
    (hq : Awaits fs q) {r : List Char} (hr : Delimited r) :
    (Token.scan (v.renderChars ++ r)).foldl step q =
      (Token.scan r).foldl step (place fs v.doc) := by
  -- the frames are arbitrary: items and members are taken in the frame that has been opened for them
  match v with
  | .null | .bool true | .bool false =>
    simp only [renderChars, List.cons_append, List.nil_append, Token.scan_null, Token.scan_true,
      Token.scan_false, List.foldl_cons]
    rw [hq _ (by simp), start, doc]
  | .number (.int i) =>
    rw [renderChars, renderNumber, Token.scan_number i hr, List.foldl_cons, hq _ (by simp), start,
      doc]
  | .number (.real _) => cases hv
  | .string s =>
    rw [renderChars, Token.scan_quoted, List.foldl_cons, hq _ (by simp), start, doc]
  | .array items =>
    simp only [renderChars, List.cons_append, List.append_assoc, List.nil_append,
      Token.scan_openArray, List.foldl_cons]
    rw [hq _ (by simp), start, doc]
    -- an array without items is closed at once, all others by their last item
    cases items with
    | nil =>
      rw [renderItems, List.nil_append, Token.scan_closeArray]
      rfl
    | cons v vs => exact foldl_scan_renderItems (v :: vs) (by simp) hv (awaits_firstItem _) r
  | .object members =>
    simp only [renderChars, List.cons_append, List.append_assoc, List.nil_append,
      Token.scan_openObject, List.foldl_cons]
    rw [hq _ (by simp), start, doc]
    cases members with
    | nil =>
      rw [renderMembers, List.nil_append, Token.scan_closeObject]
      rfl
    | cons m ms => exact foldl_scan_renderMembers (m :: ms) (by simp) hv (awaitsKey_firstKey _ _) r

theorem foldl_scan_renderItems (vs : List Value) (hne : vs ≠ []) (hvs : areWhole vs = true)
    {fs : List Frame} {items : List Doc} {q : Reader} (hq : Awaits (.array items :: fs) q)
    (r : List Char) :
    (Token.scan (renderItems vs ++ ']' :: r)).foldl step q =
      (Token.scan r).foldl step (place fs (.array (items.reverse ++ docItems vs) .closed)) := by
  match vs with
  | [] => exact absurd rfl hne
  | [v] =>
    rw [areWhole, Bool.and_eq_true] at hvs
    rw [renderItems, foldl_scan_renderChars v hvs.1 hq (delimited_cons (by simp) _),
      Token.scan_closeArray]
    simp [place, Frame.add, step, close, Frame.toDoc, docItems]
  | v :: w :: vs =>
    rw [areWhole, Bool.and_eq_true] at hvs
    have hvalue := foldl_scan_renderChars v hvs.1 hq
      (delimited_cons (c := ',') (by simp) (renderItems (w :: vs) ++ ']' :: r))
    simp only [renderItems, List.append_assoc, List.cons_append]
    rw [hvalue, Token.scan_comma, List.foldl_cons, place, Frame.add, step,
      foldl_scan_renderItems (w :: vs) (by simp) hvs.2 (awaits_nextItem _) r]
    simp [docItems]

theorem foldl_scan_renderMembers (ms : List (String × Value)) (hne : ms ≠ [])
    (hms : membersWhole ms = true) {fs : List Frame} {members : List (List Piece × Doc)}
    {q : Reader} (hq : AwaitsKey members fs q) (r : List Char) :
    (Token.scan (renderMembers ms ++ '}' :: r)).foldl step q =
      (Token.scan r).foldl step
        (place fs (.object (members.reverse ++ docMembers ms) .closed)) := by
  match ms with
  | [] => exact absurd rfl hne
  | [(k, v)] =>
    rw [membersWhole, Bool.and_eq_true] at hms
    simp only [renderMembers, List.append_assoc, List.cons_append]
    rw [Token.scan_quoted, List.foldl_cons, hq, Token.scan_colon, List.foldl_cons, step,
      foldl_scan_renderChars v hms.1 (awaits_value _) (delimited_cons (by simp) _),
      Token.scan_closeObject]
    simp [place, Frame.add, step, close, Frame.toDoc, docMembers]
  | (k, v) :: m :: ms =>
    rw [membersWhole, Bool.and_eq_true] at hms
    simp only [renderMembers, List.append_assoc, List.cons_append]
    rw [Token.scan_quoted, List.foldl_cons, hq, Token.scan_colon, List.foldl_cons, step,
      foldl_scan_renderChars v hms.1 (awaits_value _) (delimited_cons (by simp) _),
      Token.scan_comma, List.foldl_cons, place, Frame.add, step,
      foldl_scan_renderMembers (m :: ms) (by simp) hms.2 (awaitsKey_nextKey _ _) r]
    simp [docMembers]

end

end Value

/-- The text of a value is a whole text. -/
theorem Doc.ofText_render {v : Value} (hv : v.isWhole = true) :
    Doc.ofText v.render = (v.doc, false) := by
  have h := v.foldl_scan_renderChars hv (Reader.awaits_value []) (r := []) (by simp [Delimited])
  rw [List.append_nil] at h
  simp only [Doc.ofText, Value.render, String.toList_ofList, h]
  rfl

end PanelClient.Json

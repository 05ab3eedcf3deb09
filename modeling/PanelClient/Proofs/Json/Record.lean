import Mathlib.Data.List.Perm.Basic
import Mathlib.Tactic.SplitIfs
import PanelClient.Proofs.Json.Grammar
import PanelClient.Proofs.Json.Lossless

/-!
# Records read from objects

A record type is read by gathering its fields from an object and building the record from what was
found. Here the two steps are brought together: for each field one looks at the members that name it.

* `Slots.gather_object_eq_ok` : when fields are found in an object, and what is found;
* `Slots.gather_congr` : fields of the same names find the same, if they accept what was found;
* `FieldOf`, `Record` : a field with its names, its default and its value in a record, and a record
  type with its fields;
* `FieldOf.Suits`, `FieldOf.Gives` : the members suit a field, and give it a value;
* `Record.read_object_eq_ok`, `Record.decode_eq_ok_iff` : a record is read just if the members give
  every field its value;
* `ReadByMembers` : all about reading records from the texts of objects, which `Record.readByMembers`
  shows.
-/

namespace PanelClient.Json

/-! ### Finding fields -/

namespace Slots

/-- The members that name a field, filed under the field's name. -/
def filed (fields : List Field) (ms : List (String × Doc)) : Slots :=
  ms.filterMap fun m => (fieldNamed? fields m.1).map fun f => (f.name, m.2)

/-- The keys of `docs` are the names of `ms`, and its values those of `ms`, which can be passed
over. -/
def Named (ms : List (String × Doc)) (docs : List (List Piece × Doc)) : Prop :=
  List.Forall₂ (fun m d => Piece.text d.1 = some m.1 ∧ m.2 = d.2 ∧ d.2.skip = .ok ()) ms docs

variable {fields : List Field} {ms : List (String × Doc)} {docs : List (List Piece × Doc)}
  {found s : Slots}

section Step

variable {k : String} {ps : List Piece} {d : Doc} (hk : Piece.text ps = some k)
include hk

/-- A member that names no field is passed over. -/
theorem ofMembers_cons_of_none (hf : fieldNamed? fields k = none) (hd : d.skip = .ok ()) :
    ofMembers fields found ((ps, d) :: docs) = ofMembers fields found docs := by
  simp only [ofMembers, hk, hf, hd]
  rfl

/-- A member that names a field is taken if the field is new and accepts the value. -/
theorem ofMembers_cons_of_some {f : Field} (hf : fieldNamed? fields k = some f) :
    ofMembers fields found ((ps, d) :: docs) = .ok s ↔ found.lookup f.name = none ∧
      f.check d = .ok () ∧ ofMembers fields ((f.name, d) :: found) docs = .ok s := by
  simp only [ofMembers, hk, hf]
  cases found.lookup f.name with
  | some d' => simp [throw, throwThe, MonadExceptOf.throw, bind, Except.bind]
  | none =>
    cases f.check d with
    | error e => simp [bind, Except.bind]
    | ok u => simp [bind, Except.bind]

end Step

/-- None of the slots has a name that has been found before. -/
def Fresh (found slots : Slots) : Prop := ∀ m ∈ slots, found.lookup m.1 = none

theorem fresh_cons {name : String} {d : Doc} {slots : Slots} :
    Fresh ((name, d) :: found) slots ↔ name ∉ slots.map Prod.fst ∧ Fresh found slots := by
  constructor
  · intro h
    refine ⟨fun hmem => ?_, fun m hm => ?_⟩
    · obtain ⟨m, hm, rfl⟩ := List.mem_map.1 hmem
      simpa using h m hm
    · have hlookup := h m hm
      rw [List.lookup_cons] at hlookup
      split at hlookup
      · cases hlookup
      · exact hlookup
  · rintro ⟨hname, h⟩ m hm
    have hne : m.1 ≠ name := fun heq => hname (List.mem_map.2 ⟨m, hm, heq⟩)
    rw [List.lookup_cons, beq_false_of_ne hne]
    exact h m hm

/-- Taking the members of an object goes well if no field is named twice and each field named accepts
its value. -/
theorem ofMembers_eq_ok (h : Named ms docs) :
    ofMembers fields found docs = .ok s ↔
      ((filed fields ms).map Prod.fst).Nodup ∧ Fresh found (filed fields ms) ∧
      (∀ m ∈ ms, ∀ f ∈ fieldNamed? fields m.1, f.check m.2 = .ok ()) ∧
      s = (filed fields ms).reverse ++ found := by
  induction h generalizing found with
  | nil =>
    rw [ofMembers, Except.ok.injEq]
    exact ⟨fun h => ⟨.nil, List.forall_mem_nil _, List.forall_mem_nil _, h.symm⟩, fun h => h.2.2.2.symm⟩
  | @cons m d ms docs hm _ ih =>
    obtain ⟨k, d'⟩ := m
    obtain ⟨ps, d⟩ := d
    obtain ⟨hk, rfl, hskip⟩ := hm
    dsimp only at hk hskip
    rw [List.forall_mem_cons]
    cases hf : fieldNamed? fields k with
    | none =>
      have hfiled : filed fields ((k, d') :: ms) = filed fields ms := by simp [filed, hf]
      rw [ofMembers_cons_of_none hk hf hskip, ih, hfiled]
      simp
    | some f =>
      have hfiled : filed fields ((k, d') :: ms) = (f.name, d') :: filed fields ms := by
        simp [filed, hf]
      have hfresh : Fresh found ((f.name, d') :: filed fields ms) ↔
          found.lookup f.name = none ∧ Fresh found (filed fields ms) := List.forall_mem_cons
      have hcheck : (∀ f' ∈ some f, f'.check d' = .ok ()) ↔ f.check d' = .ok () := by simp
      rw [ofMembers_cons_of_some hk hf, ih, hfiled, hfresh, hcheck, fresh_cons, List.map_cons,
        List.nodup_cons, List.reverse_cons, List.append_assoc, List.singleton_append]
      tauto

/-- Fields are found in an object if none is named twice and each named one accepts its value. -/
theorem gather_object_eq_ok (h : Named ms docs) :
    gather fields (.object docs .closed) = .ok s ↔ ((filed fields ms).map Prod.fst).Nodup ∧
      (∀ m ∈ ms, ∀ f ∈ fieldNamed? fields m.1, f.check m.2 = .ok ()) ∧
      s = (filed fields ms).reverse := by
  have hgather : gather fields (.object docs .closed) = ofMembers fields [] docs := by
    rw [gather]
    cases ofMembers fields [] docs <;> rfl
  rw [hgather, ofMembers_eq_ok h, List.append_nil]
  have hfresh : Fresh [] (filed fields ms) := fun _ _ => rfl
  simp [hfresh]

theorem lookup_eq_head? (l : Slots) (name : String) :
    l.lookup name = ((l.filter (·.1 == name)).map Prod.snd).head? := by
  induction l with
  | nil => rfl
  | cons m l ih =>
    obtain ⟨k, d⟩ := m
    rw [List.lookup_cons, List.filter_cons]
    by_cases h : name = k
    · simp [h]
    · simp [beq_false_of_ne h, beq_false_of_ne (Ne.symm h), ih]

/-! ### Gathering with other checks -/

section Checks

variable {fields' : List Field}

/-- The fields of the two lists go by the same names. -/
def SameNames (fields fields' : List Field) : Prop :=
  List.Forall₂ (fun f f' => f.name = f'.name ∧ f.aliases = f'.aliases) fields fields'

theorem SameNames.fieldNamed? (h : SameNames fields fields') (k : String) :
    (fieldNamed? fields k = none ∧ fieldNamed? fields' k = none) ∨
      ∃ f f', fieldNamed? fields k = some f ∧ fieldNamed? fields' k = some f' ∧ f' ∈ fields' ∧
        f.name = f'.name := by
  induction h with
  | nil => exact .inl ⟨rfl, rfl⟩
  | @cons f f' fs fs' hf _ ih =>
    obtain ⟨hname, haliases⟩ := hf
    unfold Slots.fieldNamed? at ih ⊢
    rw [List.find?_cons, List.find?_cons, hname, haliases]
    cases f'.name == k || f'.aliases.contains k with
    | true => exact .inr ⟨f, f', rfl, rfl, List.mem_cons_self, hname⟩
    | false =>
      rcases ih with hnone | ⟨g, g', hg, hg', hmem, hname⟩
      · exact .inl hnone
      · exact .inr ⟨g, g', hg, hg', List.mem_cons_of_mem _ hmem, hname⟩

/-- What has been found stays found. -/
theorem lookup_of_ofMembers (h : ofMembers fields found docs = .ok s) {name : String} {d : Doc}
    (hfound : found.lookup name = some d) : s.lookup name = some d := by
  induction docs generalizing found with
  | nil =>
    cases h
    exact hfound
  | cons m docs ih =>
    obtain ⟨ps, d'⟩ := m
    cases hk : Piece.text ps with
    | none => simp [ofMembers, hk, throw, throwThe, MonadExceptOf.throw] at h
    | some k =>
      cases hf : Slots.fieldNamed? fields k with
      | none =>
        simp only [ofMembers, hk, hf] at h
        obtain ⟨-, -, h⟩ := bind_eq_ok.1 h
        exact ih h hfound
      | some f =>
        obtain ⟨hfree, -, h⟩ := (ofMembers_cons_of_some hk hf).1 h
        refine ih h ?_
        have hne : name ≠ f.name := by
          rintro rfl
          rw [hfree] at hfound
          cases hfound
        rw [List.lookup_cons, beq_false_of_ne hne]
        exact hfound

/-- Other fields of the same names find the same in an object, if they accept what was found. -/
theorem ofMembers_congr (h : SameNames fields fields')
    (hs : ofMembers fields found docs = .ok s)
    (hcheck : ∀ f' ∈ fields', ∀ d, s.lookup f'.name = some d → f'.check d = .ok ()) :
    ofMembers fields' found docs = .ok s := by
  induction docs generalizing found with
  | nil => exact hs
  | cons d docs ih =>
    obtain ⟨ps, d⟩ := d
    cases hk : Piece.text ps with
    | none => simp [ofMembers, hk, throw, throwThe, MonadExceptOf.throw] at hs
    | some k =>
      rcases h.fieldNamed? k with ⟨hf, hf'⟩ | ⟨f, f', hf, hf', hmem, hname⟩
      · simp only [ofMembers, hk, hf, hf'] at hs ⊢
        obtain ⟨u, hskip, hs⟩ := bind_eq_ok.1 hs
        exact bind_eq_ok.2 ⟨u, hskip, ih hs⟩
      · rw [ofMembers_cons_of_some hk hf, hname] at hs
        rw [ofMembers_cons_of_some hk hf']
        obtain ⟨hfree, -, hs⟩ := hs
        -- the value is what has been found in the end, so that the other field accepts it
        have hfound := lookup_of_ofMembers hs List.lookup_cons_self
        exact ⟨hfree, hcheck f' hmem d hfound, ih hs⟩

/-- Other fields of the same names find the same in an array, if they accept what was found. -/
theorem ofItems_congr (h : SameNames fields fields') (hnodup : (fields'.map Field.name).Nodup)
    {ds : List Doc} {e : Ending} (hs : ofItems fields ds e = .ok s)
    (hcheck : ∀ f' ∈ fields', ∀ d, s.lookup f'.name = some d → f'.check d = .ok ()) :
    ofItems fields' ds e = .ok s := by
  induction h generalizing ds s with
  | nil => exact hs
  | @cons f f' fs fs' hf _ ih =>
    cases ds with
    | nil => exact hs
    | cons d ds =>
      rw [ofItems] at hs ⊢
      obtain ⟨-, -, hs⟩ := bind_eq_ok.1 hs
      obtain ⟨s', hs', heq⟩ := bind_eq_ok.1 hs
      cases heq
      rw [hf.1] at hcheck ⊢
      rw [List.map_cons, List.nodup_cons] at hnodup
      obtain ⟨hnew, hnodup⟩ := hnodup
      have hcheck' : ∀ g ∈ fs', ∀ d', s'.lookup g.name = some d' → g.check d' = .ok () := by
        intro g hg d' hd'
        refine hcheck g (List.mem_cons_of_mem _ hg) d' ?_
        have hne : g.name ≠ f'.name := fun heq => hnew (List.mem_map.2 ⟨g, hg, heq⟩)
        rw [List.lookup_cons, beq_false_of_ne hne]
        exact hd'
      exact bind_eq_ok.2 ⟨(), hcheck f' List.mem_cons_self d List.lookup_cons_self,
        bind_eq_ok.2 ⟨s', ih hnodup hs' hcheck', rfl⟩⟩

/-- **What is found does not depend on what the fields accept**, as long as they accept what was
found. -/
theorem gather_congr (h : SameNames fields fields') (hnodup : (fields'.map Field.name).Nodup)
    {d : Doc} (hs : gather fields d = .ok s)
    (hcheck : ∀ f' ∈ fields', ∀ d, s.lookup f'.name = some d → f'.check d = .ok ()) :
    gather fields' d = .ok s := by
  cases d with
  | array ds e => exact ofItems_congr h hnodup hs hcheck
  | object docs e =>
    rw [gather] at hs ⊢
    obtain ⟨found, hfound, hs⟩ := bind_eq_ok.1 hs
    obtain ⟨u, hend, heq⟩ := bind_eq_ok.1 hs
    cases heq
    exact bind_eq_ok.2 ⟨s, ofMembers_congr h hfound hcheck, bind_eq_ok.2 ⟨u, hend, rfl⟩⟩
  | _ => cases hs

/-- The field, accepting everything. -/
def loosen (f : Field) : Field := { f with check := fun _ => .ok () }

theorem gather_loosen (h : SameNames fields fields') (hnodup : (fields'.map Field.name).Nodup)
    {d : Doc} (hs : gather fields d = .ok s) : gather (fields'.map loosen) d = .ok s := by
  have hsame : SameNames fields (fields'.map loosen) := List.forall₂_map_right_iff.2 h
  refine gather_congr hsame ?_ hs ?_
  · rw [List.map_map]
    exact hnodup
  · intro f hf _ _
    obtain ⟨f', -, rfl⟩ := List.mem_map.1 hf
    rfl

/-- Fields of the same names find the same, namely what is found by fields that accept everything. -/
theorem gather_unique {s' : Slots} (h : SameNames fields fields')
    (hnodup : (fields'.map Field.name).Nodup) {d : Doc} (hs : gather fields d = .ok s)
    (hs' : gather fields' d = .ok s') : s = s' := by
  have hloose := gather_loosen h hnodup hs
  have hloose' := gather_loosen (List.forall₂_same.2 fun _ _ => ⟨rfl, rfl⟩) hnodup hs'
  exact Except.ok.inj (hloose.symm.trans hloose')

end Checks

end Slots

/-! ### Fields -/

/-- Types of fixed shape: their values are read alike however much room there is. -/
class FixedShape (α : Type) [FromJson α] : Prop where
  read_mono {room : Nat} (room' : Nat) {d : Doc} {a : α} (h : FromJson.read room d = .ok a) :
    FromJson.read room' d = .ok a

/-- A field of the records of type `ρ`. -/
structure FieldOf (ρ : Type) where
  /-- The type of its values. -/
  {β : Type}
  [fromJson : FromJson β]
  name : String
  /-- The other names that it goes by. -/
  aliases : List String := []
  /-- The value that it has where it is absent; a field without one must be there. -/
  dflt : Option β
  /-- What is left of the room for its value. -/
  room : Nat → Nat := id
  /-- Its value in a record. -/
  get : ρ → β

namespace FieldOf

attribute [instance] FieldOf.fromJson

variable {ρ β γ δ : Type} [FromJson β]

/-- A field that must be there. -/
abbrev required (name : String) (get : ρ → β) : FieldOf ρ := { name, dflt := none, get }

/-- A field that has the value `dflt` where it is absent. -/
abbrev defaulted (name : String) (dflt : β) (get : ρ → β) : FieldOf ρ :=
  { name, dflt := some dflt, get }

variable (e : FieldOf ρ)

/-- All names of a field. -/
def names : List String := e.name :: e.aliases

/-- The field as it is looked for, where there is `room`. -/
def toField (room : Nat) : Field := .of e.β (e.room room) e.name e.aliases

/-- The value of the field, from what has been found. -/
def take (room : Nat) (s : Slots) : Except Fault e.β :=
  match s.lookup e.name, e.dflt with
  | some d, _ => FromJson.read (e.room room) d
  | none, some b => .ok b
  | none, none => .error .mismatched

/-- What the members have for the field, in order. -/
def values (ms : List (String × γ)) : List γ := (ms.filter fun m => m.1 ∈ e.names).map Prod.snd

/-- The members give the field the value `b`: one of them names it, only one, and holds what is read
as `b`, or none does and `b` is the default. -/
def Gives (read : γ → Except Fault e.β) (ms : List (String × γ)) (b : e.β) : Prop :=
  (e.values ms = [] ∧ e.dflt = some b) ∨ ∃ v, e.values ms = [v] ∧ read v = .ok b

/-- The members suit the field: at most one names it, one does if there is no default, and a value
that it is given is accepted. -/
structure Suits (accepts : γ → Prop) (ms : List (String × γ)) : Prop where
  once : (e.values ms).length ≤ 1
  present : e.dflt = none → e.values ms ≠ []
  accepted : ∀ v ∈ e.values ms, accepts v

/-- The members that name a field, each under the first name of that field. -/
def known (es : List (FieldOf ρ)) (ms : List (String × γ)) : List (String × γ) :=
  ms.filterMap fun m => (es.find? fun e => m.1 ∈ e.names).map fun e => (e.name, m.2)

variable {e}

theorem take_none {name : String} {aliases : List String} {below : Nat → Nat} {get : ρ → β}
    {room : Nat} {s : Slots} :
    take ⟨name, aliases, none, below, get⟩ room s = s.required (below room) name := by
  rw [take, Slots.required]
  dsimp only
  cases s.lookup name <;> rfl

theorem take_some {name : String} {aliases : List String} {dflt : β} {below : Nat → Nat}
    {get : ρ → β} {room : Nat} {s : Slots} :
    take ⟨name, aliases, some dflt, below, get⟩ room s = s.optional (below room) name dflt := by
  rw [take, Slots.optional]
  dsimp only
  cases s.lookup name <;> rfl

theorem check_toField {room : Nat} {d : Doc} :
    (e.toField room).check d = .ok () ↔ ∃ b : e.β, FromJson.read (e.room room) d = .ok b := by
  rw [toField, Field.of]
  dsimp only
  cases (FromJson.read (e.room room) d : Except Fault e.β) <;>
    simp [bind, Except.bind, pure, Except.pure]

/-- A value that is taken was accepted where it was found. -/
theorem check_of_take {room : Nat} {s : Slots} {b : e.β} {d : Doc} (h : e.take room s = .ok b)
    (hd : s.lookup e.name = some d) : (e.toField room).check d = .ok () := by
  rw [take, hd] at h
  exact check_toField.2 ⟨b, h⟩

theorem take_mono [FixedShape e.β] {room : Nat} (room' : Nat) {s : Slots} {b : e.β}
    (h : e.take room s = .ok b) : e.take room' s = .ok b := by
  rw [take] at h ⊢
  revert h
  cases s.lookup e.name with
  | none => cases e.dflt <;> exact id
  | some d => exact FixedShape.read_mono _

/-- Members that suit a field give it a value, and no others do. -/
theorem exists_gives_iff {read : γ → Except Fault e.β} {ms : List (String × γ)} :
    (∃ b, e.Gives read ms b) ↔ e.Suits (fun v => ∃ b, read v = .ok b) ms := by
  constructor
  · rintro ⟨b, ⟨hv, hdflt⟩ | ⟨v, hv, hread⟩⟩
    · exact ⟨by simp [hv], by simp [hdflt], by simp [hv]⟩
    · exact ⟨by simp [hv], by simp [hv], by simpa [hv] using ⟨b, hread⟩⟩
  · rintro ⟨honce, hpresent, haccepted⟩
    match hv : e.values ms, honce with
    | [], _ =>
      cases hdflt : e.dflt with
      | none => exact absurd hv (hpresent hdflt)
      | some b => exact ⟨b, .inl ⟨hv, hdflt⟩⟩
    | [v], _ =>
      obtain ⟨b, hread⟩ := haccepted v (by simp [hv])
      exact ⟨b, .inr ⟨v, hv, hread⟩⟩

/-- One value at most is the same in any order. -/
theorem Gives.of_perm {read : γ → Except Fault e.β} {ms ms' : List (String × γ)} {b : e.β}
    (h : e.Gives read ms b) (hvalues : (e.values ms).Perm (e.values ms')) : e.Gives read ms' b := by
  rcases h with ⟨hv, hdflt⟩ | ⟨v, hv, hread⟩
  · rw [hv, List.nil_perm] at hvalues
    exact .inl ⟨hvalues, hdflt⟩
  · rw [hv, List.singleton_perm] at hvalues
    exact .inr ⟨v, hvalues.symm, hread⟩

theorem values_map (f : γ → δ) (ms : List (String × γ)) :
    e.values (ms.map (Prod.map id f)) = (e.values ms).map f := by
  simp only [values, List.filter_map, List.map_map]
  rfl

/-- Values that are read alike are given alike. -/
theorem gives_map_iff {f : γ → δ} {read : γ → Except Fault e.β} {read' : δ → Except Fault e.β}
    {ms : List (String × γ)} {b : e.β}
    (h : ∀ m ∈ ms, read' (f m.2) = .ok b ↔ read m.2 = .ok b) :
    e.Gives read' (ms.map (Prod.map id f)) b ↔ e.Gives read ms b := by
  rw [Gives, Gives, values_map, List.map_eq_nil_iff]
  refine or_congr_right ⟨?_, ?_⟩
  · rintro ⟨v', hv', hread⟩
    obtain ⟨v, hv, rfl⟩ := List.map_eq_singleton_iff.1 hv'
    have hmem : v ∈ e.values ms := by simp [hv]
    obtain ⟨m, hm, rfl⟩ := List.mem_map.1 hmem
    exact ⟨m.2, hv, (h m (List.mem_of_mem_filter hm)).1 hread⟩
  · rintro ⟨v, hv, hread⟩
    have hmem : v ∈ e.values ms := by simp [hv]
    obtain ⟨m, hm, rfl⟩ := List.mem_map.1 hmem
    exact ⟨f m.2, by rw [hv]; rfl, (h m (List.mem_of_mem_filter hm)).2 hread⟩

/-! ### Finding fields by their names -/

section Names

open Slots

variable {es : List (FieldOf ρ)} {room : Nat} {k : String}

theorem fieldNamed?_toField :
    fieldNamed? (es.map fun e => e.toField room) k =
      (es.find? fun e => k ∈ e.names).map fun e => e.toField room := by
  rw [fieldNamed?, List.find?_map]
  congr 2
  funext e
  have hiff : ((e.toField room).name == k || (e.toField room).aliases.contains k) = true ↔
      k ∈ e.names := by
    rw [Bool.or_eq_true, beq_iff_eq, List.contains_iff_mem, names, List.mem_cons, toField]
    exact or_congr_left eq_comm
  exact Bool.eq_iff_iff.2 (hiff.trans decide_eq_true_iff.symm)

theorem filed_toField (ms : List (String × Doc)) :
    filed (es.map fun e => e.toField room) ms = known es ms := by
  rw [filed, known]
  congr 1
  funext m
  rw [fieldNamed?_toField, Option.map_map]
  rfl

theorem mem_names_of_find? (h : es.find? (fun e => k ∈ e.names) = some e) : k ∈ e.names := by
  have hk := List.find?_some h
  exact of_decide_eq_true hk

variable (hes : (es.flatMap names).Nodup)
include hes

/-- A name belongs to one field only. -/
theorem eq_of_mem_names {e e' : FieldOf ρ} (he : e ∈ es) (he' : e' ∈ es) (hk : k ∈ e.names)
    (hk' : k ∈ e'.names) : e = e' := by
  induction es with
  | nil => cases he
  | cons e₀ es ih =>
    rw [List.flatMap_cons, List.nodup_append'] at hes
    obtain ⟨-, hrest, hdisj⟩ := hes
    rcases List.mem_cons.1 he with rfl | hmem <;> rcases List.mem_cons.1 he' with rfl | hmem'
    · rfl
    · exact absurd (List.mem_flatMap.2 ⟨e', hmem', hk'⟩) (hdisj hk)
    · exact absurd (List.mem_flatMap.2 ⟨e, hmem, hk⟩) (hdisj hk')
    · exact ih hrest hmem hmem'

theorem nodup_name : (es.map FieldOf.name).Nodup := by
  have hsub : ∀ es : List (FieldOf ρ), (es.map FieldOf.name).Sublist (es.flatMap names) := by
    intro es
    induction es with
    | nil => exact .slnil
    | cons e es ih => exact (ih.trans (List.sublist_append_right e.aliases _)).cons_cons e.name
  exact hes.sublist (hsub es)

theorem find?_names (he : e ∈ es) (hk : k ∈ e.names) :
    es.find? (fun e => k ∈ e.names) = some e := by
  cases h : es.find? fun e => k ∈ e.names with
  | none => exact absurd (decide_eq_true hk) (List.find?_eq_none.1 h e he)
  | some e' =>
    have hk' := mem_names_of_find? h
    rw [eq_of_mem_names hes he (List.mem_of_find?_eq_some h) hk hk']

/-- What is known under the name of a field is what the members have for it. -/
theorem filter_known (he : e ∈ es) (ms : List (String × γ)) :
    (known es ms).filter (·.1 == e.name) = (e.values ms).map fun v => (e.name, v) := by
  induction ms with
  | nil => rfl
  | cons m ms ih =>
    obtain ⟨k, v⟩ := m
    by_cases hk : k ∈ e.names
    · have hknown : known es ((k, v) :: ms) = (e.name, v) :: known es ms := by
        simp [known, find?_names hes he hk]
      have hvalues : e.values ((k, v) :: ms) = v :: e.values ms := by simp [values, hk]
      rw [hknown, hvalues, List.filter_cons_of_pos (by simp), ih, List.map_cons]
    · have hvalues : e.values ((k, v) :: ms) = e.values ms := by simp [values, hk]
      rw [hvalues, ← ih, known, List.filterMap_cons]
      dsimp only
      cases h : es.find? fun e => k ∈ e.names with
      | none => rfl
      | some e' =>
        -- the field that is named has another name than `e`
        have hk' := mem_names_of_find? h
        have hne : e'.name ≠ e.name := by
          intro heq
          have hmem : e.name ∈ e'.names := heq ▸ List.mem_cons_self
          rw [eq_of_mem_names hes he (List.mem_of_find?_eq_some h) List.mem_cons_self hmem] at hk
          exact hk hk'
        exact List.filter_cons_of_neg (by simpa using hne)

/-- Members of which the known ones are the same up to their order have the same for each field, up
to the order. -/
theorem perm_values {ms ms' : List (String × γ)} (h : (known es ms).Perm (known es ms'))
    (he : e ∈ es) : (e.values ms).Perm (e.values ms') := by
  have hfilter := (h.filter (·.1 == e.name)).map Prod.snd
  rw [filter_known hes he, filter_known hes he, List.map_map, List.map_map] at hfilter
  have hid : (Prod.snd ∘ fun v : γ => (e.name, v)) = id := rfl
  rwa [hid, List.map_id, List.map_id] at hfilter

/-- The names under which members are known are all different if no field is named twice. -/
theorem nodup_known_iff (ms : List (String × γ)) :
    ((known es ms).map Prod.fst).Nodup ↔ ∀ e ∈ es, (e.values ms).length ≤ 1 := by
  have hcount : ∀ e ∈ es, ((known es ms).map Prod.fst).count e.name = (e.values ms).length := by
    intro e he
    rw [List.count_eq_countP, List.countP_map, List.countP_eq_length_filter]
    exact (congrArg List.length (filter_known hes he ms)).trans (List.length_map _)
  rw [List.nodup_iff_count_le_one]
  constructor
  · intro h e he
    rw [← hcount e he]
    exact h e.name
  · intro h name
    by_cases hmem : name ∈ (known es ms).map Prod.fst
    · obtain ⟨m, hm, rfl⟩ := List.mem_map.1 hmem
      obtain ⟨m', -, hm'⟩ := List.mem_filterMap.1 hm
      obtain ⟨e, he, rfl⟩ := Option.map_eq_some_iff.1 hm'
      have hmem := List.mem_of_find?_eq_some he
      exact Nat.le_trans (Nat.le_of_eq (hcount e hmem)) (h e hmem)
    · rw [List.count_eq_zero_of_not_mem hmem]
      exact Nat.zero_le 1

theorem lookup_known (he : e ∈ es) {ms : List (String × Doc)} (hone : (e.values ms).length ≤ 1) :
    (known es ms).reverse.lookup e.name = (e.values ms).head? := by
  rw [lookup_eq_head?, List.filter_reverse, filter_known hes he, ← List.map_reverse, List.map_map]
  match hv : e.values ms, hone with
  | [], _ => rfl
  | [d], _ => rfl

/-- A field takes from what is known the value that the members give it. -/
theorem take_known_iff (he : e ∈ es) {ms : List (String × Doc)} (hone : (e.values ms).length ≤ 1)
    {b : e.β} : e.take room (known es ms).reverse = .ok b ↔
      e.Gives (FromJson.read (e.room room)) ms b := by
  rw [take, lookup_known hes he hone, Gives]
  match hv : e.values ms, hone with
  | [], _ => cases e.dflt <;> simp
  | [d], _ => simp

/-- Each field accepts what the members have for it. -/
theorem checks_iff (ms : List (String × Doc)) :
    (∀ m ∈ ms, ∀ f ∈ fieldNamed? (es.map fun e => e.toField room) m.1, f.check m.2 = .ok ()) ↔
      ∀ e ∈ es, ∀ d ∈ e.values ms, ∃ b : e.β, FromJson.read (e.room room) d = .ok b := by
  simp only [fieldNamed?_toField, Option.mem_def, Option.map_eq_some_iff]
  constructor
  · intro h e he d hd
    obtain ⟨m, hm, rfl⟩ := List.mem_map.1 hd
    obtain ⟨hm, hk⟩ := List.mem_filter.1 hm
    exact check_toField.1 (h m hm _ ⟨e, find?_names hes he (of_decide_eq_true hk), rfl⟩)
  · rintro h m hm _ ⟨e, he, rfl⟩
    have hk := decide_eq_true (mem_names_of_find? he)
    have hd : m.2 ∈ e.values ms := List.mem_map.2 ⟨m, List.mem_filter.2 ⟨hm, hk⟩, rfl⟩
    exact check_toField.2 (h e (List.mem_of_find?_eq_some he) _ hd)

end Names

end FieldOf

/-! ### Records -/

/-- Types that are read field by field. -/
class Record (ρ : Type) [FromJson ρ] where
  fields : List (FieldOf ρ)
  /-- No name belongs to two fields. -/
  nodup_names : (fields.flatMap FieldOf.names).Nodup
  /-- There is a record with any values of the fields. -/
  exists_get {P : (e : FieldOf ρ) → e.β → Prop} (h : ∀ e ∈ fields, ∃ b, P e b) :
    ∃ a, ∀ e ∈ fields, P e (e.get a)
  /-- The fields are found, and each takes its value. -/
  read_eq_ok {room : Nat} {d : Doc} {a : ρ} : FromJson.read room d = .ok a ↔
    ∃ s, Slots.gather (fields.map fun e => e.toField room) d = .ok s ∧
      ∀ e ∈ fields, e.take room s = .ok (e.get a)

namespace Record

open Slots

theorem read_iff {ρ : Type} {es : List (FieldOf ρ)} {fields : List Field} {d : Doc} {a : ρ}
    {room : Nat} {build : Slots → Except Fault ρ} (hfields : fields = es.map fun e => e.toField room)
    (hbuild : ∀ s, build s = .ok a ↔ ∀ e ∈ es, e.take room s = .ok (e.get a)) :
    (do
      let s ← gather fields d
      build s) = .ok a ↔
      ∃ s, gather (es.map fun e => e.toField room) d = .ok s ∧
        ∀ e ∈ es, e.take room s = .ok (e.get a) := by
  rw [hfields, bind_eq_ok]
  exact exists_congr fun s => and_congr_right fun _ => hbuild s

variable {ρ : Type} [FromJson ρ] [Record ρ] {ms : List (String × Doc)}
  {docs : List (List Piece × Doc)} {room : Nat} {a : ρ}

/-- **A record is read from an object** just if the members give every field its value. -/
theorem read_object_eq_ok (h : Named ms docs) :
    FromJson.read room (.object docs .closed) = .ok a ↔
      ∀ e ∈ fields (ρ := ρ), e.Gives (FromJson.read (e.room room)) ms (e.get a) := by
  have hnames := nodup_names (ρ := ρ)
  rw [read_eq_ok]
  constructor
  · rintro ⟨s, hs, htake⟩ e he
    -- what was found is what is known of the members, each field once
    obtain ⟨hnodup, -, rfl⟩ := (gather_object_eq_ok h).1 hs
    rw [FieldOf.filed_toField, FieldOf.nodup_known_iff hnames] at hnodup
    rw [FieldOf.filed_toField] at htake
    exact (FieldOf.take_known_iff hnames he (hnodup e he)).1 (htake e he)
  · intro hgives
    have hsuits : ∀ e ∈ fields (ρ := ρ), e.Suits (fun d => ∃ b, FromJson.read (e.room room) d = .ok b)
        ms := fun e he => FieldOf.exists_gives_iff.1 ⟨_, hgives e he⟩
    have honce : ∀ e ∈ fields (ρ := ρ), (e.values ms).length ≤ 1 := fun e he => (hsuits e he).once
    refine ⟨_, (gather_object_eq_ok h).2 ⟨?_, ?_, rfl⟩, fun e he => ?_⟩
    · rw [FieldOf.filed_toField]
      exact (FieldOf.nodup_known_iff hnames ms).2 honce
    · exact (FieldOf.checks_iff hnames ms).2 fun e he => (hsuits e he).accepted
    · rw [FieldOf.filed_toField]
      exact (FieldOf.take_known_iff hnames he (honce e he)).2 (hgives e he)

/-- A record is read from what fields of the same names have found, if its fields can be taken from
it. -/
theorem read_of_gather {fields' : List Field} {d : Doc} {s : Slots}
    (h : SameNames fields' (fields.map fun e : FieldOf ρ => e.toField room))
    (hs : gather fields' d = .ok s)
    (htake : ∀ e ∈ fields (ρ := ρ), e.take room s = .ok (e.get a)) :
    FromJson.read room d = .ok a := by
  refine read_eq_ok.2 ⟨s, gather_congr h ?_ hs ?_, htake⟩
  · rw [List.map_map]
    exact FieldOf.nodup_name nodup_names
  · intro f hf d hd
    obtain ⟨e, he, rfl⟩ := List.mem_map.1 hf
    exact FieldOf.check_of_take (htake e he) hd

end Record

/-! ### Texts of records -/

/-- Records of which all fields have types of fixed shape. -/
class FixedFields (ρ : Type) [FromJson ρ] [Record ρ] : Prop where
  fixedShape : ∀ e ∈ Record.fields (ρ := ρ), FixedShape e.β := by
    simp only [Record.fields, List.forall_mem_cons]
    and_intros <;> first | infer_instance | exact List.forall_mem_nil _

namespace Record

open Slots Grammar

variable {ρ : Type} [FromJson ρ] [Record ρ] [FixedFields ρ]

instance (priority := low) : FixedShape ρ where
  read_mono {room} room' d a h := by
    obtain ⟨s, hs, htake⟩ := read_eq_ok.1 h
    refine read_of_gather ?_ hs fun e he => ?_
    · exact List.forall₂_map_left_iff.2 (List.forall₂_map_right_iff.2
        (List.forall₂_same.2 fun _ _ => ⟨rfl, rfl⟩))
    · have := FixedFields.fixedShape e he
      exact FieldOf.take_mono room' (htake e he)

/-- **A record is read from the text of an object** just if the members give every field its
value. -/
theorem decode_eq_ok_iff {text : String} {members : List (String × String)}
    (h : IsObjectText text members) {a : ρ} : decode ρ text = .ok a ↔
      ∀ e ∈ fields (ρ := ρ), e.Gives (decode e.β) members (e.get a) := by
  obtain ⟨docs, htext, hmembers, hwhole⟩ := h.reads
  have hnamed : Named (members.map (Prod.map id fun v => (Doc.ofText v).1)) docs :=
    List.forall₂_map_left_iff.2 hmembers
  rw [decode_eq_ok, htext, read_object_eq_ok hnamed, and_iff_left rfl]
  refine forall₂_congr fun e he => FieldOf.gives_map_iff fun m hm => ?_
  -- alone a value has more room than in an object, which its type does not notice
  have := FixedFields.fixedShape e he
  rw [decode_eq_ok, hwhole m hm, and_iff_left rfl]
  exact ⟨FixedShape.read_mono _, FixedShape.read_mono _⟩

/-- The names of the fields that must be there. -/
def mandatory (ρ : Type) [FromJson ρ] [Record ρ] : List String :=
  ((fields (ρ := ρ)).filter fun e => e.dflt.isNone).map FieldOf.name

end Record

/-- How records are read from the texts of objects. -/
structure ReadByMembers (ρ : Type) [FromJson ρ] [Record ρ] : Prop where
  /-- A record is read just if the members suit every field. -/
  exists_iff {text : String} {members : List (String × String)}
    (h : Grammar.IsObjectText text members) : (∃ a, decode ρ text = .ok a) ↔
      ∀ e ∈ Record.fields (ρ := ρ), e.Suits (fun v => ∃ b, decode e.β v = .ok b) members
  /-- The record that is read has the values that the members give to its fields. -/
  eq_ok_iff {text : String} {members : List (String × String)}
    (h : Grammar.IsObjectText text members) {a : ρ} : decode ρ text = .ok a ↔
      ∀ e ∈ Record.fields (ρ := ρ), e.Gives (decode e.β) members (e.get a)
  /-- The order of the members, members that name no field and the choice among the names of a field
  do not matter. -/
  decode_of_perm {text text' : String} {members members' : List (String × String)}
    (h : Grammar.IsObjectText text members) (h' : Grammar.IsObjectText text' members')
    (hknown : (FieldOf.known (Record.fields (ρ := ρ)) members).Perm
      (FieldOf.known (Record.fields (ρ := ρ)) members')) {a : ρ} (ha : decode ρ text = .ok a) :
    decode ρ text' = .ok a

theorem Record.readByMembers {ρ : Type} [FromJson ρ] [Record ρ] [FixedFields ρ] :
    ReadByMembers ρ where
  eq_ok_iff h := decode_eq_ok_iff h
  exists_iff {text members} h := by
    constructor
    · rintro ⟨a, ha⟩ e he
      exact FieldOf.exists_gives_iff.1 ⟨_, (decode_eq_ok_iff h).1 ha e he⟩
    · intro hsuits
      obtain ⟨a, ha⟩ := exists_get fun e he => FieldOf.exists_gives_iff.2 (hsuits e he)
      exact ⟨a, (decode_eq_ok_iff h).2 ha⟩
  decode_of_perm h h' hknown a ha := by
    refine (decode_eq_ok_iff h').2 fun e he => ?_
    have hvalues := FieldOf.perm_values nodup_names hknown he
    exact ((decode_eq_ok_iff h).1 ha e he).of_perm hvalues

end PanelClient.Json

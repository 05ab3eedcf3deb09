import Mathlib.Data.List.Nodup
import PanelClient.Proofs.Json.Text

/-!
# Types that are read as they are written

A type has one instance that writes it and another that reads it. The two agree if what is written
is read back, which is shown for the tree (`Lossless`) and holds for the text (`decode_encode`).

* `Lossless` : types whose values are got back from what is written;
* `Slots.gather_doc` : in an object that is written with each name once, every field finds the value
  written under its name, and `Slots.read_record` reads a record off it;
* `readChoice_doc_string`, `readChoice_doc_object` : the same for variants.
-/

namespace PanelClient.Json

/-- Types whose values are got back from what is written. -/
class Lossless (α : Type) [FromJson α] [ToJson α] : Prop where
  /-- Only whole numbers are written. -/
  isWhole (a : α) : (toValue a).isWhole = true
  read_doc (room : Nat) (a : α) : FromJson.read room (toValue a).doc = .ok a

/-- Types that never write `null`. -/
class NonNull (α : Type) [ToJson α] : Prop where
  toValue_ne (a : α) : toValue a ≠ .null

variable {α : Type} [FromJson α]

/-- A text is read as its tree is, and nothing may follow it. -/
theorem decode_eq_ok {text : String} {a : α} : decode α text = .ok a ↔
    FromJson.read maxDepth (Doc.ofText text).1 = .ok a ∧ (Doc.ofText text).2 = false := by
  rw [decode, bind_eq_ok]
  cases (Doc.ofText text).2 with
  | false => simp [pure, Except.pure]
  | true => simp [throw, throwThe, MonadExceptOf.throw, bind, Except.bind]

/-- The text of a value is read as its tree is. -/
theorem decode_render {v : Value} (hv : v.isWhole = true) {a : α}
    (h : FromJson.read maxDepth v.doc = .ok a) : decode α v.render = .ok a := by
  rw [decode_eq_ok, Doc.ofText_render hv]
  exact ⟨h, rfl⟩

variable [ToJson α]

/-- **What is written is read back.** -/
theorem decode_encode [Lossless α] (a : α) : decode α (encode a) = .ok a :=
  decode_render (Lossless.isWhole a) (Lossless.read_doc _ a)

/-! ### Texts, numbers, lists and options -/

instance : Lossless String where
  isWhole _ := rfl
  read_doc _ s := by
    change (match Piece.text (s.toList.map Piece.written) with
      | some s => Except.ok s
      | none => Except.error Fault.malformed) = _
    rw [Piece.text_map_written]

instance : Lossless Bool where
  isWhole _ := rfl
  read_doc _ _ := rfl

instance : Lossless Unit where
  isWhole _ := rfl
  read_doc _ _ := rfl

theorem readNumber_of_value {β : Type} {f : Number → Option β} {n : Numeral} {v : Number} {b : β}
    (hv : n.value? = some v) (hf : f v = some b) : readNumber f (.number n) = .ok b := by
  simp only [readNumber, hv, hf]

theorem natBelow?_natCast {limit n : Nat} (h : n < limit) :
    (Number.int n).natBelow? limit = some n := by
  rw [Number.natBelow?, if_pos ⟨Int.natCast_nonneg n, Int.ofNat_lt.2 h⟩, Int.toNat_natCast]

theorem value?_toNat (n : UInt64) : (Numeral.ofInt n.toNat).value? = some (.int n.toNat) := by
  have hlt : n.toNat < Numeral.wordLimit := n.toNat_lt
  exact Numeral.value?_ofInt (by omega) (Int.ofNat_lt.2 hlt)

instance : Lossless UInt64 where
  isWhole _ := rfl
  read_doc _ n := readNumber_of_value (value?_toNat n) (by
    have hlt : n.toNat < UInt64.size := n.toNat_lt
    rw [natBelow?_natCast hlt, Option.map_some, UInt64.ofNat_toNat])

instance : NonNull String := ⟨fun _ => nofun⟩
instance : NonNull (List α) := ⟨fun _ => nofun⟩

theorem readItems_docItems [Lossless α] (room : Nat) (as : List α) :
    readItems room (Value.docItems (as.map toValue)) = .ok as := by
  induction as with
  | nil => rfl
  | cons a as ih =>
    simp only [List.map_cons, Value.docItems, readItems, Lossless.read_doc, ih]
    rfl

theorem areWhole_map_toValue [Lossless α] (as : List α) :
    Value.areWhole (as.map toValue) = true := by
  induction as with
  | nil => rfl
  | cons a as ih => simp [Value.areWhole, Lossless.isWhole, ih]

instance [Lossless α] : Lossless (List α) where
  isWhole := areWhole_map_toValue
  read_doc room as := by
    change (do
      let as ← readItems (room - 1) (Value.docItems (as.map toValue))
      Ending.closed.finish
      return as) = _
    rw [readItems_docItems]
    rfl

/-- A value that is there is read as one that may be missing. -/
theorem read_option_doc [Lossless α] [NonNull α] (room : Nat) (a : α) :
    FromJson.read room (toValue a).doc = .ok (some a) := by
  have hread := Lossless.read_doc room a
  have hwhole := Lossless.isWhole a
  have hne := NonNull.toValue_ne a
  generalize toValue a = v at hread hwhole hne
  -- only `null` and a text that breaks off are read differently where a value may be missing
  have hoption : (FromJson.read room v.doc : Except Fault (Option α)) =
      some <$> FromJson.read room v.doc := by
    cases v with
    | null => exact absurd rfl hne
    | number n =>
      cases n with
      | int i => rfl
      | real x => cases hwhole
    | _ => rfl
  rw [hoption, hread]
  rfl

/-! ### Records -/

namespace Slots

open Value

/-- A member is taken for the field of its name. -/
def Accepts (fields : List Field) (m : String × Value) : Prop :=
  ∃ f, fieldNamed? fields m.1 = some f ∧ f.name = m.1 ∧ f.check m.2.doc = .ok ()

theorem ofMembers_docMembers {fields : List Field} {ms : List (String × Value)}
    (hnames : (ms.map Prod.fst).Nodup) (hms : ∀ m ∈ ms, Accepts fields m) (found : Slots)
    (hfound : ∀ m ∈ ms, found.lookup m.1 = none) :
    ∃ slots, ofMembers fields found (docMembers ms) = .ok slots ∧
      ∀ name, slots.lookup name = ((ms.lookup name).map doc).or (found.lookup name) := by
  induction ms generalizing found with
  | nil => exact ⟨found, rfl, fun _ => rfl⟩
  | cons m ms ih =>
    obtain ⟨k, v⟩ := m
    obtain ⟨f, hf, hname, hcheck⟩ := hms (k, v) List.mem_cons_self
    rw [List.map_cons, List.nodup_cons] at hnames
    have hne : ∀ m ∈ ms, m.1 ≠ k := fun m hm heq =>
      hnames.1 (List.mem_map.2 ⟨m, hm, heq⟩)
    have hk : ms.lookup k = none := List.lookup_eq_none_iff.2 fun m hm => by
      simpa using (hne m hm).symm
    -- the names that are left are not that of the member just taken
    have hfound' : ∀ m ∈ ms, ((k, v.doc) :: found).lookup m.1 = none := fun m hm => by
      rw [List.lookup_cons, beq_false_of_ne (hne m hm)]
      exact hfound m (List.mem_cons_of_mem _ hm)
    obtain ⟨slots, hslots, hlookup⟩ :=
      ih hnames.2 (fun m hm => hms m (List.mem_cons_of_mem _ hm)) _ hfound'
    refine ⟨slots, ?_, fun name => ?_⟩
    · have hfree : found.lookup k = none := hfound (k, v) List.mem_cons_self
      simp only [docMembers, ofMembers, Piece.text_map_written, hf, hname, hfree, hcheck]
      exact hslots
    · rw [hlookup, List.lookup_cons, List.lookup_cons]
      by_cases hname : name = k
      · subst hname
        simp [hk]
      · simp [beq_false_of_ne hname]

/-- The fields have found the values of an object under their names. -/
def Hold (slots : Slots) (ms : List (String × Value)) : Prop :=
  ∀ name, slots.lookup name = (ms.lookup name).map doc

/-- **Every field finds what is written under its name**, in an object with each name once. -/
theorem gather_doc {fields : List Field} {ms : List (String × Value)}
    (hnames : (ms.map Prod.fst).Nodup) (hms : ∀ m ∈ ms, Accepts fields m) :
    ∃ slots, gather fields (Value.object ms).doc = .ok slots ∧ Hold slots ms := by
  obtain ⟨slots, hslots, hlookup⟩ := ofMembers_docMembers hnames hms [] fun _ _ => rfl
  refine ⟨slots, ?_, fun name => by simp [hlookup]⟩
  simp only [doc, gather, hslots]
  rfl

/-- A record is read from what is written, if it is built from the values under its names. -/
theorem read_record {β : Type} {fields : List Field} {ms : List (String × Value)}
    {build : Slots → Except Fault β} {b : β} (hnames : (ms.map Prod.fst).Nodup)
    (hms : ms.Forall (Accepts fields)) (hbuild : ∀ slots, Hold slots ms → build slots = .ok b) :
    (do
      let slots ← gather fields (Value.object ms).doc
      build slots) = .ok b := by
  obtain ⟨slots, hslots, hold⟩ := gather_doc hnames (List.forall_iff_forall_mem.1 hms)
  rw [hslots]
  exact hbuild slots hold

variable {fields : List Field} {ms : List (String × Value)} {slots : Slots} {room : Nat}

omit [FromJson α] [ToJson α] in
theorem accepts_of_read {β : Type} [FromJson β] {name : String} {aliases : List String} {v : Value}
    {b : β} (hread : FromJson.read room v.doc = .ok b)
    (h : fieldNamed? fields name = some (.of β room name aliases)) : Accepts fields (name, v) := by
  refine ⟨_, h, rfl, ?_⟩
  simp only [Field.of, hread]
  rfl

/-- A field whose member is left out where there is nothing to write. -/
theorem Hold.optional_map {f : α → Option α} (hs : Hold slots ms) (name : String) (a? : Option α)
    (hread : ∀ a : α, FromJson.read room (toValue a).doc = .ok (f a))
    (h : ms.lookup name = a?.map toValue) : slots.optional room name none = .ok (a?.bind f) := by
  rw [Slots.optional, hs, h]
  cases a? with
  | none => rfl
  | some a => exact hread a

variable [Lossless α]

theorem accepts_of {name : String} {aliases : List String} (a : α)
    (h : fieldNamed? fields name = some (.of α room name aliases)) :
    Accepts fields (name, toValue a) :=
  accepts_of_read (Lossless.read_doc room a) h

theorem Hold.required (hs : Hold slots ms) (name : String) (a : α)
    (h : ms.lookup name = some (toValue a)) : slots.required room name = .ok a := by
  rw [Slots.required, hs, h]
  exact Lossless.read_doc room a

theorem Hold.optional (hs : Hold slots ms) (name : String) (a dflt : α)
    (h : ms.lookup name = some (toValue a)) : slots.optional room name dflt = .ok a := by
  rw [Slots.optional, hs, h]
  exact Lossless.read_doc room a

end Slots

theorem isWhole_object {ms : List (String × Value)} (h : ms.Forall fun m => m.2.isWhole = true) :
    (Value.object ms).isWhole = true := by
  change Value.membersWhole ms = true
  induction ms with
  | nil => rfl
  | cons m ms ih =>
    rw [List.forall_cons] at h
    rw [Value.membersWhole, h.1, ih h.2]
    rfl

/-! ### Choices -/

theorem readChoice_doc_string {β : Type} (bare : String → Except Fault β)
    (loaded : String → Doc → Except Fault β) (s : String) :
    readChoice bare loaded (Value.string s).doc = bare s := by
  simp only [Value.doc, readChoice, Piece.text_map_written]

theorem readChoice_doc_object {β : Type} (bare : String → Except Fault β)
    (loaded : String → Doc → Except Fault β) (s : String) (v : Value) :
    readChoice bare loaded (Value.object [(s, v)]).doc = loaded s v.doc := by
  simp only [Value.doc, Value.docMembers, readChoice, Piece.text_map_written]
  cases loaded s v.doc <;> rfl

end PanelClient.Json

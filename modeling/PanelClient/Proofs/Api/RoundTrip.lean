import PanelClient.Api.Envelope
import PanelClient.Api.Models
import PanelClient.Notification.Severity
import PanelClient.Proofs.Json.Lossless

/-!
# What is exchanged is read as it is written

Each type is written by one set of rules and read by another: fields and their names, defaults,
members that are left out, names of variants. Here the two are shown to agree.

* the models are `Lossless`;
* `Envelope.read_doc` : an envelope is read as it is written, apart from what happens to its result;
* `Envelope.decode_encode_unit`, `Envelope.result_of_decode_unit` : what happens to a result that
  holds nothing;
* `exchanged_round_trip` : the round trips of all types that are exchanged.
-/

namespace PanelClient

open Json Slots

/-! ### Models -/

instance : Lossless User where
  isWhole _ := rfl
  read_doc room u := read_record (by simp) ⟨accepts_of _ rfl, accepts_of _ rfl, accepts_of _ rfl⟩
    fun _ hs => by
      rw [hs.required "name" u.name rfl, hs.required "username" u.username rfl,
        hs.required "permissions" u.permissions rfl]
      rfl

instance : Lossless LaunchConfig where
  isWhole c := isWhole_object ⟨Lossless.isWhole _, Lossless.isWhole _, Lossless.isWhole _,
    Lossless.isWhole _, Lossless.isWhole _, Lossless.isWhole _⟩
  read_doc room c := read_record (by simp)
    ⟨accepts_of _ rfl, accepts_of _ rfl, accepts_of _ rfl, accepts_of _ rfl, accepts_of _ rfl,
      accepts_of _ rfl⟩
    fun _ hs => by
      rw [hs.required "java" c.java rfl, hs.required "max_ram" c.maxRam rfl,
        hs.optional "jvm_args" c.jvmArgs [] rfl, hs.required "server_file" c.serverFile rfl,
        hs.optional "args" c.args [] rfl, hs.optional "dist_folder" c.distFolder [] rfl]
      rfl

instance : Lossless Instance where
  isWhole i := isWhole_object
    ⟨Lossless.isWhole _, Lossless.isWhole _, Lossless.isWhole _, Lossless.isWhole _⟩
  read_doc room i := read_record (by simp)
    ⟨accepts_of _ rfl, accepts_of _ rfl, accepts_of _ rfl, accepts_of _ rfl⟩
    fun _ hs => by
      rw [hs.required "config" i.config rfl, hs.required "mod_type" i.modType rfl,
        hs.required "name" i.name rfl, hs.required "version" i.version rfl]
      rfl

instance : Lossless InstanceType where
  isWhole t := by cases t <;> rfl
  read_doc room t := by
    cases t with
    | forge build =>
      refine (readChoice_doc_object _ _ "forge" (toValue build)).trans ?_
      rw [InstanceType.loaded, if_pos rfl, Lossless.read_doc]
      rfl
    | vanilla => exact readChoice_doc_string _ _ "Vanilla"
    | purpur => exact readChoice_doc_string _ _ "Purpur"

instance : Lossless NewInstance where
  isWhole r := isWhole_object ⟨Lossless.isWhole _, Lossless.isWhole _⟩
  read_doc room r := read_record (by simp) ⟨accepts_of _ rfl, accepts_of _ rfl⟩ fun _ hs => by
    rw [hs.required "typ" r.type rfl, hs.required "version" r.version rfl]
    rfl

instance : Lossless Credentials where
  isWhole _ := rfl
  read_doc room c := read_record (by simp) ⟨accepts_of _ rfl, accepts_of _ rfl, accepts_of _ rfl⟩
    fun _ hs => by
      rw [hs.required "username" c.username rfl, hs.required "password" c.password rfl,
        hs.required "set" c.set rfl]
      rfl

instance : Lossless Severity where
  isWhole _ := rfl
  read_doc room s := by
    refine (readChoice_doc_string _ _ s.name).trans ?_
    rw [Severity.named, Severity.ofName?_name]

instance : NonNull User := ⟨fun _ => nofun⟩
instance : NonNull LaunchConfig := ⟨fun _ => nofun⟩
instance : NonNull Instance := ⟨fun _ => nofun⟩
instance : NonNull InstanceType := ⟨fun t => by cases t <;> nofun⟩
instance : NonNull NewInstance := ⟨fun _ => nofun⟩
instance : NonNull Credentials := ⟨fun _ => nofun⟩
instance : NonNull Severity := ⟨fun _ => nofun⟩

/-! ### Envelopes -/

namespace Envelope

variable {α β : Type} [ToJson α] [ToJson β]

theorem lookup_member (name k : String) (b? : Option β) :
    (member name b?).lookup k = if k = name then b?.map toValue else none := by
  cases b? with
  | none => simp [member]
  | some b =>
    by_cases hk : k = name
    · simp [member, hk]
    · simp [member, List.lookup_cons, beq_false_of_ne hk, hk]

theorem names_member (name : String) (b? : Option β) :
    ((member name b?).map Prod.fst).Sublist [name] := by
  cases b? <;> simp [member]

theorem forall_mem_member {P : String × Value → Prop} {name : String} {b? : Option β} :
    (∀ m ∈ member name b?, P m) ↔ ∀ b ∈ b?, P (name, toValue b) := by
  cases b? <;> simp [member]

/-- The members of an envelope stand in a fixed order, each at most once. -/
theorem names_nodup (e : Envelope α) :
    ((("success", toValue e.success) :: member "result" e.result ++ member "message" e.message ++
      member "err_cause" e.cause).map Prod.fst).Nodup := by
  have hall : ["success", "result", "message", "err_cause"].Nodup := by simp
  refine hall.sublist ?_
  rw [List.map_append, List.map_append, List.map_cons]
  exact (((names_member "result" e.result).cons_cons "success").append
    (names_member "message" e.message)).append (names_member "err_cause" e.cause)

theorem isWhole (hresult : ∀ a : α, (toValue a).isWhole = true) (e : Envelope α) :
    (toValue e).isWhole = true := by
  refine isWhole_object ?_
  rw [List.forall_iff_forall_mem]
  simp only [List.forall_mem_append, List.forall_mem_cons, forall_mem_member]
  exact ⟨⟨⟨Lossless.isWhole _, fun a _ => hresult a⟩, fun m _ => Lossless.isWhole m⟩,
    fun c _ => Lossless.isWhole c⟩

variable [FromJson α]

/-- An envelope is read as it is written, apart from its result, which is read by `f`. -/
theorem read_doc {f : α → Option α}
    (hf : ∀ room a, FromJson.read room (toValue a).doc = .ok (f a)) (room : Nat) (e : Envelope α) :
    FromJson.read room (toValue e).doc = .ok { e with result := e.result.bind f } := by
  refine read_record (names_nodup e) ?_ fun _ hs => ?_
  -- what is written under a name is accepted by the field of that name
  · rw [List.forall_iff_forall_mem]
    simp only [List.forall_mem_append, List.forall_mem_cons, forall_mem_member]
    exact ⟨⟨⟨accepts_of _ rfl, fun a _ => accepts_of_read (hf _ a) rfl⟩,
      fun m _ => accepts_of_read (read_option_doc _ m) rfl⟩,
      fun c _ => accepts_of_read (read_option_doc _ c) rfl⟩
  -- and each field gets back what was written, or nothing where nothing was
  · rw [hs.required "success" e.success rfl, hs.optional_map "result" e.result (hf _) ?_,
      hs.optional_map "message" e.message (read_option_doc _) ?_,
      hs.optional_map "err_cause" e.cause (read_option_doc _) ?_, Option.bind_fun_some,
      Option.bind_fun_some]
    · rfl
    all_goals simp [List.lookup_append, List.lookup_cons, lookup_member]

instance [Lossless α] [NonNull α] : Lossless (Envelope α) where
  isWhole := isWhole Lossless.isWhole
  read_doc room e := by rw [read_doc read_option_doc, Option.bind_fun_some]

/-! ### Envelopes without a result -/

/-- A result that is nothing is written as `null`, and `null` is read as a missing result. -/
theorem decode_encode_unit (e : Envelope Unit) :
    decode (Envelope Unit) (encode e) = .ok { e with result := none } := by
  refine decode_render (isWhole Lossless.isWhole e) ?_
  rw [read_doc (f := fun _ => none) fun _ _ => rfl]
  cases e.result <;> rfl

theorem read_option_unit {room : Nat} {d : Doc} {u? : Option Unit}
    (h : FromJson.read room d = .ok u?) : u? = none := by
  cases d with
  | null => exact (Except.ok.inj h).symm
  | broken b =>
    change (if b.first = some 'n' then .error b.kept else
      some <$> FromJson.read room (Doc.broken b) : Except Fault (Option Unit)) = _ at h
    split_ifs at h
    cases h
  | _ => cases h

theorem optional_option_unit {s : Slots} {room : Nat} {name : String} {u? : Option Unit}
    (h : s.optional room name none = .ok u?) : u? = none := by
  rw [Slots.optional] at h
  split at h
  · exact read_option_unit h
  · exact (Except.ok.inj h).symm

/-- Nothing is read as a result. -/
theorem result_of_read_unit {room : Nat} {d : Doc} {e : Envelope Unit}
    (h : FromJson.read room d = .ok e) : e.result = none := by
  obtain ⟨s, -, hfields⟩ := bind_eq_ok.1 h
  obtain ⟨success, -, hfields⟩ := bind_eq_ok.1 hfields
  obtain ⟨result, hresult, hfields⟩ := bind_eq_ok.1 hfields
  obtain ⟨message, -, hfields⟩ := bind_eq_ok.1 hfields
  obtain ⟨cause, -, hfields⟩ := bind_eq_ok.1 hfields
  cases hfields
  exact optional_option_unit hresult

theorem result_of_decode_unit {text : String} {e : Envelope Unit}
    (h : decode (Envelope Unit) text = .ok e) : e.result = none :=
  result_of_read_unit (decode_eq_ok.1 h).1

end Envelope

/-! ### Round trips -/

/-- The values of a type, alone and in envelopes, are read back from their texts. -/
def RoundTrips (α : Type) [FromJson α] [ToJson α] : Prop :=
  (∀ a : α, decode α (encode a) = .ok a) ∧
    ∀ e : Envelope α, decode (Envelope α) (encode e) = .ok e

/-- What is read from a text, alone or as an envelope, is read again from its own text. -/
def Settled (α : Type) [FromJson α] [ToJson α] : Prop :=
  (∀ text a, decode α text = .ok a → decode α (encode a) = decode α text) ∧
    ∀ text e, decode (Envelope α) text = .ok e →
      decode (Envelope α) (encode e) = decode (Envelope α) text

theorem roundTrips_of_lossless {α : Type} [FromJson α] [ToJson α] [Lossless α] [NonNull α] :
    RoundTrips α := ⟨decode_encode, decode_encode⟩

theorem RoundTrips.settled {α : Type} [FromJson α] [ToJson α] (h : RoundTrips α) : Settled α :=
  ⟨fun _ a ha => by rw [ha, h.1 a], fun _ e he => by rw [he, h.2 e]⟩

theorem settled_unit : Settled Unit := by
  refine ⟨fun _ a ha => by rw [ha, decode_encode], fun _ e he => ?_⟩
  have hresult := Envelope.result_of_decode_unit he
  rw [he, Envelope.decode_encode_unit, ← hresult]

/-- **What is exchanged is read as it is written.** Every value that is sent or received, alone or
in an envelope, is read back from its text. An envelope that holds nothing for a result is the one
exception: the result is lost, since nothing is written as `null` and `null` is read as no result;
and no text at all is read as an envelope with that result. So what has been read from a text is
always read again from its own text. -/
theorem exchanged_round_trip :
    (RoundTrips User ∧ RoundTrips Instance ∧ RoundTrips LaunchConfig ∧ RoundTrips InstanceType ∧
      RoundTrips NewInstance ∧ RoundTrips Credentials ∧ RoundTrips Severity ∧ RoundTrips (List String)) ∧
    (∀ e : Envelope Unit, decode (Envelope Unit) (encode e) = .ok { e with result := none }) ∧
    (∀ text (e : Envelope Unit), decode (Envelope Unit) text = .ok e → e.result ≠ some ()) ∧
    (Settled User ∧ Settled Instance ∧ Settled LaunchConfig ∧ Settled InstanceType ∧
      Settled NewInstance ∧ Settled Credentials ∧ Settled Severity ∧ Settled (List String) ∧
      Settled Unit) := by
  have hresult : ∀ text (e : Envelope Unit), decode (Envelope Unit) text = .ok e →
      e.result ≠ some () := fun text e h => by simp [Envelope.result_of_decode_unit h]
  refine ⟨⟨?_, ?_, ?_, ?_, ?_, ?_, ?_, ?_⟩, Envelope.decode_encode_unit, hresult,
    ?_, ?_, ?_, ?_, ?_, ?_, ?_, ?_, settled_unit⟩
  iterate 8 exact roundTrips_of_lossless
  iterate 8 exact roundTrips_of_lossless.settled

/-- The result of the exception is written. -/
example : encode (Envelope.ofResult ()) = "\x7b\"success\":true,\"result\":null\x7d" := by
  decide +kernel

end PanelClient

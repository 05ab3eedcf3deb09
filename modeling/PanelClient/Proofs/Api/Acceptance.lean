import PanelClient.Api.Envelope
import PanelClient.Api.Models
import PanelClient.Proofs.Json.Record

/-!
# Which objects are accepted

The models and envelopes are records: each is listed here with its fields, their names and defaults,
and shown to be read field by field.

* the instances of `Record` : the fields of each type;
* `objects_accepted` : which texts of objects are read, and what is read from them.
-/

namespace PanelClient

open Json FieldOf

/-! ### Types of fixed shape -/

instance : FixedShape String := ⟨fun _ _ _ h => h⟩
instance : FixedShape Bool := ⟨fun _ _ _ h => h⟩
instance : FixedShape UInt32 := ⟨fun _ _ _ h => h⟩
instance : FixedShape UInt64 := ⟨fun _ _ _ h => h⟩
instance : FixedShape Binary64 := ⟨fun _ _ _ h => h⟩
instance : FixedShape InstanceType := ⟨fun _ _ _ h => h⟩

variable {α : Type} [FromJson α]

theorem readItems_mono [FixedShape α] {room : Nat} (room' : Nat) {ds : List Doc} {as : List α}
    (h : readItems room ds = .ok as) : readItems room' ds = .ok as := by
  induction ds generalizing as with
  | nil => exact h
  | cons d ds ih =>
    rw [readItems] at h ⊢
    obtain ⟨a, ha, h⟩ := bind_eq_ok.1 h
    obtain ⟨as', has, h⟩ := bind_eq_ok.1 h
    exact bind_eq_ok.2 ⟨a, FixedShape.read_mono _ ha, bind_eq_ok.2 ⟨as', ih has, h⟩⟩

instance [FixedShape α] : FixedShape (List α) where
  read_mono room' d as h := by
    cases d with
    | array ds e =>
      obtain ⟨as', has, h⟩ := bind_eq_ok.1 h
      exact bind_eq_ok.2 ⟨as', readItems_mono _ has, h⟩
    | _ => cases h

/-- A value that may be missing is `null`, or refused at once, or read as one that is there. -/
theorem read_option_cases (d : Doc) :
    d = .null ∨
      (∃ f, ∀ room, (FromJson.read room d : Except Fault (Option α)) = .error f) ∨
      ∀ room, (FromJson.read room d : Except Fault (Option α)) = some <$> FromJson.read room d := by
  cases d with
  | null => exact .inl rfl
  | broken b =>
    by_cases hb : b.first = some 'n'
    · exact .inr (.inl ⟨b.kept, fun _ => if_pos hb⟩)
    · exact .inr (.inr fun _ => if_neg hb)
  | _ => exact .inr (.inr fun _ => rfl)

/-- Only `null` is read as a missing value. -/
theorem read_option_eq_none {room : Nat} {d : Doc}
    (h : FromJson.read room d = .ok (none : Option α)) : d = .null := by
  rcases read_option_cases (α := α) d with hnull | ⟨f, herror⟩ | hsome
  · exact hnull
  · rw [herror] at h
    cases h
  · rw [hsome] at h
    cases hd : (FromJson.read room d : Except Fault α) with
    | error f =>
      rw [hd] at h
      cases h
    | ok a =>
      rw [hd] at h
      cases h

instance [FixedShape α] : FixedShape (Option α) where
  read_mono {room} room' d a? h := by
    rcases read_option_cases (α := α) d with rfl | ⟨f, herror⟩ | hsome
    · exact h
    · rw [herror] at h
      cases h
    · rw [hsome] at h ⊢
      cases hd : (FromJson.read room d : Except Fault α) with
      | error f =>
        rw [hd] at h
        cases h
      | ok a =>
        rw [hd] at h
        rw [FixedShape.read_mono room' hd]
        exact h

/-! ### Records -/

instance : Record User where
  fields := [required "name" (·.name), required "username" (·.username),
    required "permissions" (·.permissions)]
  nodup_names := by decide
  exists_get h := by
    simp only [List.forall_mem_cons] at h ⊢
    obtain ⟨⟨a, ha⟩, ⟨b, hb⟩, ⟨c, hc⟩, -⟩ := h
    exact ⟨⟨a, b, c⟩, ha, hb, hc, List.forall_mem_nil _⟩
  read_eq_ok {_ _ a} := Record.read_iff rfl fun s => by
    cases a
    simp [take_none, bind_eq_ok, pure, Except.pure]

instance : FixedFields User := {}

instance : Record LaunchConfig where
  fields := [required "java" (·.java), required "max_ram" (·.maxRam),
    defaulted "jvm_args" [] (·.jvmArgs), required "server_file" (·.serverFile),
    defaulted "args" [] (·.args), defaulted "dist_folder" [] (·.distFolder)]
  nodup_names := by decide
  exists_get h := by
    simp only [List.forall_mem_cons] at h ⊢
    obtain ⟨⟨a, ha⟩, ⟨b, hb⟩, ⟨c, hc⟩, ⟨d, hd⟩, ⟨e, he⟩, ⟨f, hf⟩, -⟩ := h
    exact ⟨⟨a, b, c, d, e, f⟩, ha, hb, hc, hd, he, hf, List.forall_mem_nil _⟩
  read_eq_ok {_ _ a} := Record.read_iff rfl fun s => by
    cases a
    simp [take_none, take_some, bind_eq_ok, pure, Except.pure]

instance : FixedFields LaunchConfig := {}

instance : Record Instance where
  fields := [required "config" (·.config), required "mod_type" (·.modType), required "name" (·.name),
    required "version" (·.version)]
  nodup_names := by decide
  exists_get h := by
    simp only [List.forall_mem_cons] at h ⊢
    obtain ⟨⟨a, ha⟩, ⟨b, hb⟩, ⟨c, hc⟩, ⟨d, hd⟩, -⟩ := h
    exact ⟨⟨a, b, c, d⟩, ha, hb, hc, hd, List.forall_mem_nil _⟩
  read_eq_ok {_ _ a} := Record.read_iff rfl fun s => by
    cases a
    simp [take_none, bind_eq_ok, pure, Except.pure]

instance : FixedFields Instance := {}

instance : Record NewInstance where
  fields := [required "typ" (·.type), required "version" (·.version)]
  nodup_names := by decide
  exists_get h := by
    simp only [List.forall_mem_cons] at h ⊢
    obtain ⟨⟨a, ha⟩, ⟨b, hb⟩, -⟩ := h
    exact ⟨⟨a, b⟩, ha, hb, List.forall_mem_nil _⟩
  read_eq_ok {_ _ a} := Record.read_iff rfl fun s => by
    cases a
    simp [take_none, bind_eq_ok, pure, Except.pure]

instance : FixedFields NewInstance := {}

instance : Record Credentials where
  fields := [required "username" (·.username), required "password" (·.password),
    required "set" (·.set)]
  nodup_names := by decide
  exists_get h := by
    simp only [List.forall_mem_cons] at h ⊢
    obtain ⟨⟨a, ha⟩, ⟨b, hb⟩, ⟨c, hc⟩, -⟩ := h
    exact ⟨⟨a, b, c⟩, ha, hb, hc, List.forall_mem_nil _⟩
  read_eq_ok {_ _ a} := Record.read_iff rfl fun s => by
    cases a
    simp [take_none, bind_eq_ok, pure, Except.pure, -Bool.exists_bool]

instance : FixedFields Credentials := {}

/-- All statistics may be missing, and are then empty or zero. -/
instance : Record SystemInfo where
  fields := [defaulted "os" "" (·.os), defaulted "arch" "" (·.arch), defaulted "hostname" "" (·.hostname),
    defaulted "cpus" 0 (·.cpus), defaulted "cpu_clock" 0 (·.cpuClock),
    defaulted "mem_total" 0 (·.memTotal), defaulted "mem_free" 0 (·.memFree),
    defaulted "mem_avail" 0 (·.memAvail), defaulted "mem_buff" 0 (·.memBuff),
    defaulted "mem_cache" 0 (·.memCache), defaulted "mem_shm" 0 (·.memShm),
    defaulted "mem_used" 0 (·.memUsed), defaulted "swap_total" 0 (·.swapTotal),
    defaulted "swap_free" 0 (·.swapFree), defaulted "load_1" ⟨false, 0⟩ (·.load1),
    defaulted "load_5" ⟨false, 0⟩ (·.load5), defaulted "load_15" ⟨false, 0⟩ (·.load15)]
  nodup_names := by decide
  exists_get h := by
    simp only [List.forall_mem_cons] at h ⊢
    obtain ⟨⟨a, ha⟩, ⟨b, hb⟩, ⟨c, hc⟩, ⟨d, hd⟩, ⟨e, he⟩, ⟨f, hf⟩, ⟨g, hg⟩, ⟨i, hi⟩, ⟨j, hj⟩, ⟨k, hk⟩,
      ⟨l, hl⟩, ⟨m, hm⟩, ⟨n, hn⟩, ⟨o, ho⟩, ⟨p, hp⟩, ⟨q, hq⟩, ⟨r, hr⟩, -⟩ := h
    exact ⟨⟨a, b, c, d, e, f, g, i, j, k, l, m, n, o, p, q, r⟩, ha, hb, hc, hd, he, hf, hg, hi, hj, hk,
      hl, hm, hn, ho, hp, hq, hr, List.forall_mem_nil _⟩
  read_eq_ok {_ _ a} := Record.read_iff rfl fun s => by
    cases a
    simp [take_some, bind_eq_ok, pure, Except.pure]

instance : FixedFields SystemInfo := {}

/-- The cause goes by two names, and the result is one level further down. -/
instance : Record (Envelope α) where
  fields := [required "success" (·.success),
    { name := "result", dflt := some none, room := (· - 1), get := (·.result) },
    defaulted "message" none (·.message),
    { name := "err_cause", aliases := ["cause"], dflt := some none, get := (·.cause) }]
  nodup_names := by
    change ["success", "result", "message", "err_cause", "cause"].Nodup
    decide
  exists_get h := by
    simp only [List.forall_mem_cons] at h ⊢
    obtain ⟨⟨a, ha⟩, ⟨b, hb⟩, ⟨c, hc⟩, ⟨d, hd⟩, -⟩ := h
    exact ⟨⟨a, b, c, d⟩, ha, hb, hc, hd, List.forall_mem_nil _⟩
  read_eq_ok {_ _ a} := Record.read_iff rfl fun s => by
    cases a
    simp [take_none, take_some, bind_eq_ok, pure, Except.pure,
      -Bool.exists_bool]

instance [FixedShape α] : FixedFields (Envelope α) := {}

/-! ### Acceptance -/

/-- **Which objects the models accept.** Take any text of an object in which no surrogate stands alone
in a key. It is read just if every field is named once at most, once exactly if it is mandatory, and
each value that a field is given is the text of a value of its type; the cause of an envelope has two
names for this. What is read has, in every field, the value given or the default. So nothing else
about the object matters: not the order of its members, nor which of two names is used, nor any member
that names no field. -/
theorem objects_accepted :
    (ReadByMembers User ∧ ReadByMembers Instance ∧ ReadByMembers LaunchConfig ∧
      ReadByMembers NewInstance ∧ ReadByMembers Credentials ∧ ReadByMembers SystemInfo) ∧
    (ReadByMembers (Envelope User) ∧ ReadByMembers (Envelope Instance) ∧
      ReadByMembers (Envelope LaunchConfig) ∧ ReadByMembers (Envelope NewInstance) ∧
      ReadByMembers (Envelope Credentials) ∧ ReadByMembers (Envelope SystemInfo) ∧
      ReadByMembers (Envelope (List String))) ∧
    (Record.mandatory User = ["name", "username", "permissions"] ∧
      Record.mandatory Instance = ["config", "mod_type", "name", "version"] ∧
      Record.mandatory LaunchConfig = ["java", "max_ram", "server_file"] ∧
      Record.mandatory NewInstance = ["typ", "version"] ∧
      Record.mandatory Credentials = ["username", "password", "set"] ∧
      Record.mandatory SystemInfo = [] ∧
      ∀ (α : Type) [FromJson α], Record.mandatory (Envelope α) = ["success"]) := by
  refine ⟨⟨?_, ?_, ?_, ?_, ?_, ?_⟩, ⟨?_, ?_, ?_, ?_, ?_, ?_, ?_⟩, rfl, rfl, rfl, rfl, rfl, rfl,
    fun _ _ => rfl⟩
  all_goals exact Record.readByMembers

/-- The old name of the cause, a member without a field, and no result. -/
example : decode (Envelope (List String))
    "\x7b\"cause\":\"c\",\"x\":[\x7b\x7d],\"success\":false\x7d" =
      .ok ⟨false, none, none, some "c"⟩ := by
  decide +kernel

end PanelClient

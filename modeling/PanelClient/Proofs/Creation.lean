import PanelClient.Proofs.Addresses
import PanelClient.Proofs.Api.RoundTrip
import PanelClient.Proofs.CommandLine.Innermost

/-!
# Instances are created as they are asked for

The build of Forge has an option of its own, which must be given just if the type of the instance is
`forge`; the wish for an instance falls back on an empty build where there is none. The fallback is
never taken: what is sent to the backend is what the words of the line set.

* `Creation.Follows` : a wish says what the words of the line say;
* `Asks` : the words ask for an instance of a type;
* `Invocation.creation_as_asked` : a line that creates an instance sends just that type and version,
  and a line that sets the type to `forge` but no build is refused.
-/

namespace PanelClient

open CommandLine

/-- The wish says what the words say: the flavour that they set or else `vanilla`, the build of
Forge if they set one, and their version; with Forge there is a build. -/
structure Creation.Follows (words : List String) (wish : Creation) : Prop where
  vanilla_iff : wish.flavour = .vanilla ↔ Sets "type" "vanilla" words ∨ ∀ t, ¬ Sets "type" t words
  purpur_iff : wish.flavour = .purpur ↔ Sets "type" "purpur" words
  forge_iff : wish.flavour = .forge ↔ Sets "type" "forge" words
  build_iff : ∀ build, wish.build = some build ↔ Sets "forge" build words
  version_iff : ∀ v, wish.version = v ↔ Sets "mc-version" v words
  build_of_forge : wish.flavour = .forge → wish.build.isSome = true

/-- The words ask for an instance of a type; a build counts only with the type `forge`. -/
inductive Asks (words : List String) : InstanceType → Prop where
  | vanilla (h : Sets "type" "vanilla" words ∨ ∀ t, ¬ Sets "type" t words) : Asks words .vanilla
  | purpur (h : Sets "type" "purpur" words) : Asks words .purpur
  | forge {build : String} (h : Sets "type" "forge" words) (hbuild : Sets "forge" build words) :
    Asks words (.forge build)

namespace CommandLine

/-! ### The options of a new instance -/

/-- The options of the command that creates an instance. -/
def creationOptions : List String := ["mc-version", "type", "forge"]

theorem grammar_keeps {n : String} (hn : n ∈ creationOptions) : grammar.Every (Cmd.Keeps n) := by
  revert n
  decide

/-- A command for which a type can be given needs the build of Forge with the type `forge`. -/
def NeedsBuild (c : Cmd) : Prop :=
  "type" ∈ c.operands ++ c.opts.map Opt.name →
    ∃ o ∈ c.opts, o.name = "forge" ∧ o.requiredWith = some ("type", "forge")

instance : DecidablePred NeedsBuild := fun _ => inferInstanceAs (Decidable (_ → _))

theorem grammar_needsBuild : grammar.Every NeedsBuild := by decide

section

variable {env : String → Option String} {words : List String} {m : Matches} {n v : String}

theorem ne_creationOption (hn : n ∈ creationOptions) : ∀ o ∈ globals, o.name ≠ n := by
  revert n
  decide

theorem lookup_eq_some_iff (h : Reads ⟨grammar, globals, env⟩ false [] grammar.operands words m)
    (hn : n ∈ creationOptions) : m.innermost.lookup n = some v ↔ Sets n v words := by
  have hname : n ≠ "" ∧ '=' ∉ n.toList := by
    revert n
    decide
  simpa using h.lookup_innermost (grammar_keeps hn) (ne_creationOption hn) nofun hname.1 hname.2

/-- What the line says of the innermost command. -/
theorem exists_innermost (h : Reads ⟨grammar, globals, env⟩ false [] grammar.operands words m) :
    ∃ c given, grammar.at? m.path = some c ∧ Scope.Knows ⟨c, globals, env⟩ given ∧
      Scope.Ends ⟨c, globals, env⟩ given none (.mk m.innermost none) :=
  h.exists_ends Scope.knows_nil fun _ => id

/-- Under the names of these options, the line alone gives something. -/
theorem lookup_given {c : Cmd} {given : List (String × String)} (hc : grammar.at? m.path = some c)
    (he : Scope.Ends ⟨c, globals, env⟩ given none (.mk m.innermost none))
    (hn : n ∈ creationOptions) :
    given.lookup n = m.innermost.lookup n := by
  have henv : (State.fromEnvironment ⟨c, globals, env⟩ given).lookup n = none := by
    refine State.lookup_fromEnvironment fun o ho hname => ?_
    exact (Cmd.Keeps.of_mem_opts ((grammar_keeps hn).at? hc) (ne_creationOption hn) ho hname).2.1
  rw [(Matches.mk.inj he.eq).1, List.lookup_append, henv, Option.none_or]

/-- Where the type `forge` is given, so is the build. -/
theorem exists_build (h : Reads ⟨grammar, globals, env⟩ false [] grammar.operands words m)
    (htype : m.innermost.lookup "type" = some "forge") : ∃ build, Sets "forge" build words := by
  obtain ⟨c, given, hc, hknows, he⟩ := exists_innermost h
  have hgiven := (lookup_given hc he (by decide)).trans htype
  have hmem : "type" ∈ c.operands ++ c.opts.map Opt.name := by
    rcases hknows.known _ _ hgiven with hp | ⟨o, ho, hname⟩
    · exact List.mem_append_left _ hp
    · rcases Scope.mem_opts_iff.1 ho with ho | ho
      · exact List.mem_append_right _ (List.mem_map.2 ⟨o, ho, hname⟩)
      · exact absurd hname (ne_creationOption (by decide) o ho)
  obtain ⟨o, ho, hname, hwith⟩ := grammar_needsBuild.at? hc hmem
  have hneeded : State.isNeeded m.innermost o = true := by
    rw [State.isNeeded, hwith]
    simp [htype]
  obtain ⟨build, hbuild⟩ := Option.isSome_iff_exists.1
    (he.needed o (Scope.mem_opts_iff.2 (.inl ho)) hneeded)
  exact ⟨build, (lookup_eq_some_iff h (by decide)).1 (hname ▸ hbuild)⟩

/-- The command that creates an instance needs a version. -/
theorem exists_version (h : Reads ⟨grammar, globals, env⟩ false [] grammar.operands words m)
    (hpath : m.path = ["instance", "create"]) : ∃ v, m.innermost.lookup "mc-version" = some v := by
  obtain ⟨c, given, hc, -, he⟩ := exists_innermost h
  rw [hpath] at hc
  have hrequired : ∀ c ∈ grammar.at? ["instance", "create"],
      ∃ o ∈ c.opts, o.name = "mc-version" ∧ o.required = true := by decide
  obtain ⟨o, ho, hname, hreq⟩ := hrequired c hc
  have hneeded : State.isNeeded m.innermost o = true := by rw [State.isNeeded, hreq, Bool.true_or]
  exact Option.isSome_iff_exists.1 (hname ▸ he.needed o (Scope.mem_opts_iff.2 (.inl ho)) hneeded)

/-- The type of a new instance is one of the flavours. -/
theorem mem_flavours (h : Reads ⟨grammar, globals, env⟩ false [] grammar.operands words m)
    (hpath : m.path = ["instance", "create"]) (hv : m.innermost.lookup "type" = some v) :
    v ∈ flavours := by
  obtain ⟨c, given, hc, hknows, he⟩ := exists_innermost h
  have hgiven := (lookup_given hc he (by decide)).trans hv
  rw [hpath] at hc
  cases hc
  exact List.contains_iff_mem.1 (hknows.accepted _ _ hgiven _ rfl)

end

end CommandLine

/-! ### The wish -/

namespace Flavour

theorem ofName_eq_purpur_iff {name : String} : ofName name = .purpur ↔ name = "purpur" := by
  rw [ofName.eq_def]
  split <;> simp_all

theorem ofName_eq_forge_iff {name : String} : ofName name = .forge ↔ name = "forge" := by
  rw [ofName.eq_def]
  split <;> simp_all

end Flavour

namespace Creation

variable {wish : Creation} {words : List String}

/-- The type of an instance that is wished for is the type that the words ask for. -/
theorem Follows.asks_iff (h : wish.Follows words) {t : InstanceType} :
    Asks words t ↔ t = wish.type := by
  constructor
  · rintro (hvanilla | hpurpur | ⟨hforge, hbuild⟩)
    · rw [type, h.vanilla_iff.2 hvanilla]
    · rw [type, h.purpur_iff.2 hpurpur]
    · rw [type, h.forge_iff.2 hforge, (h.build_iff _).2 hbuild]
      rfl
  · rintro rfl
    rw [type]
    cases hflavour : wish.flavour with
    | vanilla => exact .vanilla (h.vanilla_iff.1 hflavour)
    | purpur => exact .purpur (h.purpur_iff.1 hflavour)
    | forge =>
      obtain ⟨build, hbuild⟩ := Option.isSome_iff_exists.1 (h.build_of_forge hflavour)
      rw [hbuild]
      exact .forge (h.forge_iff.1 hflavour) ((h.build_iff _).1 hbuild)

end Creation

namespace Invocation

variable {env : String → Option String} {words : List String} {m : Matches}

theorem commandOf_eq_create {wish : Creation} (h : commandOf m = .create wish) :
    m.path = ["instance", "create"] ∧ wish =
      ⟨(m.innermost.lookup "name").getD "", (m.innermost.lookup "mc-version").getD "",
        .ofName ((m.innermost.lookup "type").getD ""), m.innermost.lookup "forge"⟩ := by
  rw [commandOf.eq_def] at h
  split at h <;> cases h
  exact ⟨by assumption, rfl⟩

theorem follows_of_reads {wish : Creation}
    (h : Reads ⟨grammar, globals, env⟩ false [] grammar.operands words m)
    (hwish : commandOf m = .create wish) : wish.Follows words := by
  obtain ⟨hpath, rfl⟩ := commandOf_eq_create hwish
  have htype {t : String} : m.innermost.lookup "type" = some t ↔ Sets "type" t words :=
    lookup_eq_some_iff h (by decide)
  have hbuild {build : String} :
      m.innermost.lookup "forge" = some build ↔ Sets "forge" build words :=
    lookup_eq_some_iff h (by decide)
  have hgetD {t : String} (ht : t ≠ "") :
      (m.innermost.lookup "type").getD "" = t ↔ Sets "type" t words := by
    rw [← htype]
    cases m.innermost.lookup "type" <;> simp [ht.symm]
  obtain ⟨version, hversion⟩ := exists_version h hpath
  refine ⟨?_, ?_, ?_, fun _ => hbuild, fun v => ?_, fun hforge => ?_⟩
  · cases hlookup : m.innermost.lookup "type" with
    | none =>
      refine ⟨fun _ => .inr fun t ht => ?_, fun _ => rfl⟩
      cases hlookup.symm.trans (htype.2 ht)
    | some t =>
      have hmem := mem_flavours h hpath hlookup
      simp only [← htype, hlookup, Option.some.injEq, forall_eq', or_false]
      simp only [flavours, List.mem_cons, List.not_mem_nil, or_false] at hmem
      rcases hmem with rfl | rfl | rfl <;> decide
  · exact Flavour.ofName_eq_purpur_iff.trans (hgetD (by decide))
  · exact Flavour.ofName_eq_forge_iff.trans (hgetD (by decide))
  · rw [← lookup_eq_some_iff h (by decide), hversion]
    simp
  · obtain ⟨build, hset⟩ := exists_build h
      (htype.2 ((hgetD (by decide)).1 (Flavour.ofName_eq_forge_iff.1 hforge)))
    exact Option.isSome_iff_exists.2 ⟨build, hbuild.2 hset⟩

/-- **Instances are created as they are asked for.** If the words of a line are an invocation that
creates an instance, the wish says what the words say, and with Forge it has the build that they
set; one request is sent, and its body is read as the type that the words ask for, with the version
that they set. Words that set the type to `forge` but no build are no invocation. -/
theorem creation_as_asked (env : String → Option String) (words : List String) :
    (∀ i wish, parse env words = .ok i → i.command = .create wish →
      wish.Follows words ∧
      ∀ {σ : Type} (c : Client σ) (w : World σ), ∃ q body type,
        (c.execute w i.command).2.sent = w.sent ++ [q] ∧ q.body = some body ∧
        Json.decode NewInstance body = .ok ⟨type, wish.version⟩ ∧ Asks words type) ∧
    (Sets "type" "forge" words → (∀ build, ¬ Sets "forge" build words) →
      ∃ e, parse env words = .error e) := by
  refine ⟨fun i wish hparse hcommand => ?_, fun htype hbuild => ?_⟩
  · obtain ⟨m, hreads, rfl⟩ := parse_eq_ok_iff.1 hparse
    have hfollows := follows_of_reads hreads hcommand
    refine ⟨hfollows, fun c w => ⟨(Command.create wish).call.request c,
      Json.encode (⟨wish.type, wish.version⟩ : NewInstance), wish.type, ?_, rfl,
      Json.decode_encode _, hfollows.asks_iff.2 rfl⟩⟩
    rw [Client.execute_sent, hcommand, Client.Call.make_world]
  · cases hparse : parse env words with
    | error e => exact ⟨e, rfl⟩
    | ok i =>
      obtain ⟨m, hreads, -⟩ := parse_eq_ok_iff.1 hparse
      obtain ⟨build, hset⟩ :=
        exists_build hreads ((lookup_eq_some_iff hreads (by decide)).2 htype)
      exact absurd hset (hbuild build)

/-- An instance of Forge is created with the build that the line sets, and not without one. -/
theorem creation_as_asked_of_forge :
    (∃ i, parse (fun _ => none) ["instance", "create", "lobby", "--mc-version", "1.20.1",
        "--type", "forge", "--forge", "47.2.0"] = .ok i ∧
      i.command = .create ⟨"lobby", "1.20.1", .forge, some "47.2.0"⟩ ∧
      ∀ {σ : Type} (c : Client σ) (w : World σ), ∃ q body,
        (c.execute w i.command).2.sent = w.sent ++ [q] ∧ q.body = some body ∧
        Json.decode NewInstance body = .ok ⟨.forge "47.2.0", "1.20.1"⟩) ∧
    ∃ e, parse (fun _ => none) ["instance", "create", "lobby", "--mc-version", "1.20.1",
      "--type", "forge"] = .error e := by
  constructor
  · have hparse : parse (fun _ => none) ["instance", "create", "lobby", "--mc-version", "1.20.1",
        "--type", "forge", "--forge", "47.2.0"] =
        .ok ⟨none, none, "/", .create ⟨"lobby", "1.20.1", .forge, some "47.2.0"⟩⟩ := by rfl
    obtain ⟨hfollows, hsends⟩ := (creation_as_asked _ _).1 _ _ hparse rfl
    refine ⟨_, hparse, rfl, fun c w => ?_⟩
    obtain ⟨q, body, type, hsent, hbody, hdecode, hasks⟩ := hsends c w
    obtain rfl := hfollows.asks_iff.1 hasks
    exact ⟨q, body, hsent, hbody, hdecode⟩
  · refine (creation_as_asked _ _).2 ?_ fun build hset => ?_
    · have hset : Sets "type" "forge" ["--type", "forge"] := .apart (by decide)
      exact .later (by decide) (.later (by decide) (.later (by decide) (.later (by decide)
        (.later (by decide) hset))))
    · exact absurd hset.exists_isPrefix (by decide)

end Invocation

end PanelClient

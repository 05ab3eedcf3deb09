import PanelClient.Proofs.CommandLine.Line

/-!
# What is given for the innermost command

Whether an option of a command without subcommands is given can be told from the words of a line
alone, with no regard to where they stand, and where a line ends, all that its innermost command
needs is given.

* `Sets` : the words before `--` set an option to a value;
* `Cmd.Keeps` : the option is one of commands without subcommands, and has no letter;
* `Reads.lookup_innermost` : what the line says of such an option is what its words set it to;
* `Cmd.at?`, `Scope.Knows` : the command of a path, and what can be given for it;
* `Reads.exists_ends` : the innermost command ends there.
-/

namespace PanelClient.CommandLine

/-- Before any `--`, the words set the option of a name to a value: the value is written to it or
stands behind it as a word of its own. -/
inductive Sets (name value : String) : List String → Prop where
  | joined {rest} : Sets name value (assignment name value :: rest)
  | apart {rest} (h : IsPlain value) : Sets name value (("--" ++ name) :: value :: rest)
  | later {w rest} (hw : w ≠ "--") (h : Sets name value rest) : Sets name value (w :: rest)

/-- If the command has an option of the name, the option is written with two dashes, the environment
does not give it, and there are no subcommands; nothing else is mistaken for it. -/
structure Cmd.Keeps (name : String) (c : Cmd) : Prop where
  opts : ∀ o ∈ c.opts, o.name = name → o.short = none ∧ o.envVar = none ∧ c.subs = []
  operands : name ∉ c.operands
  subs : ∀ d ∈ c.subs, IsPlain d.name

instance (name : String) : DecidablePred (Cmd.Keeps name) := fun c =>
  decidable_of_iff
    ((∀ o ∈ c.opts, o.name = name →
        o.short = none ∧ o.envVar = none ∧ c.subs.isEmpty = true) ∧
      name ∉ c.operands ∧ ∀ d ∈ c.subs, IsPlain d.name)
    ⟨fun ⟨h₁, h₂, h₃⟩ => ⟨by simpa using h₁, h₂, h₃⟩,
      fun ⟨h₁, h₂, h₃⟩ => ⟨by simpa using h₁, h₂, h₃⟩⟩

/-! ### Words -/

section Words

variable {s : Scope} {o : Opt} {n v u w : String} {rest : List String}

theorem Scope.Takes.eq_assignment (h : s.Takes o w (some v)) (ho : o.short = none) :
    w = assignment o.name v := by
  cases h with
  | nameWith h => rw [name_of_long? h.long?]
  | letterWith h => exact nomatch ho.symm.trans (short_of_short? h.short?)
  | letterJoined h => exact nomatch ho.symm.trans (short_of_short? h.short?)

theorem Scope.Takes.eq_name (h : s.Takes o w none) (ho : o.short = none) : w = "--" ++ o.name := by
  cases h with
  | name h => rw [name_of_long? h.long?]
  | letter h => exact nomatch ho.symm.trans (short_of_short? h.short?)

theorem not_sets_nil : ¬ Sets n v [] := nofun

/-- One of the words begins with the name of the option. -/
theorem Sets.exists_isPrefix {words : List String} (h : Sets n v words) :
    ∃ w ∈ words, ("--" ++ n).toList <+: w.toList := by
  induction h with
  | joined => exact ⟨_, List.mem_cons_self, by simp [assignment]⟩
  | apart => exact ⟨_, List.mem_cons_self, List.prefix_rfl⟩
  | later _ _ ih =>
    obtain ⟨w, hw, hprefix⟩ := ih
    exact ⟨w, List.mem_cons_of_mem _ hw, hprefix⟩

theorem sets_cons_of_plain (hw : IsPlain w) : Sets n v (w :: rest) ↔ Sets n v rest := by
  have hne : w ≠ "--" := fun h => absurd (h ▸ hw) (by decide)
  refine ⟨fun h => ?_, .later hne⟩
  cases h with
  | joined => exact absurd hw (not_isPlain_assignment _ _)
  | apart => exact absurd (toList_dashes n) (hw _ _)
  | later _ h => exact h

theorem not_sets_separator (hn : n ≠ "") : ¬ Sets n v ("--" :: rest) := by
  generalize hw : "--" = w
  rintro (_ | _ | ⟨hne, -⟩)
  · exact assignment_ne_separator _ _ hw.symm
  · have hlist := congrArg String.toList hw
    rw [toList_dashes] at hlist
    exact hn (String.toList_eq_nil_iff.1 (List.cons.inj (List.cons.inj hlist).2).2.symm)
  · exact hne hw.symm

theorem sets_option (hn : '=' ∉ n.toList) (ho : s.Takes o w (some u))
    (hshort : o.name = n → o.short = none) :
    Sets n v (w :: rest) ↔ o.name = n ∧ u = v ∨ Sets n v rest := by
  constructor
  · generalize hline : w :: rest = line
    rintro (_ | _ | ⟨-, h⟩) <;> cases hline
    · obtain ⟨hname, hvalue⟩ := ho.of_assignment hn
      exact .inl ⟨hname, Option.some.inj hvalue⟩
    · cases (ho.of_name hn).2
    · exact .inr h
  · rintro (⟨rfl, rfl⟩ | h)
    · rw [ho.eq_assignment (hshort rfl)]
      exact .joined
    · exact .later ho.ne_separator h

theorem sets_optionApart (hn : '=' ∉ n.toList) (ho : s.Takes o w none) (hu : IsPlain u)
    (hshort : o.name = n → o.short = none) :
    Sets n v (w :: u :: rest) ↔ o.name = n ∧ u = v ∨ Sets n v rest := by
  constructor
  · generalize hline : w :: u :: rest = line
    rintro (_ | _ | ⟨-, h⟩) <;> cases hline
    · cases (ho.of_assignment hn).2
    · exact .inl ⟨(ho.of_name hn).1, rfl⟩
    · exact .inr ((sets_cons_of_plain hu).1 h)
  · rintro (⟨rfl, rfl⟩ | h)
    · rw [ho.eq_name (hshort rfl)]
      exact .apart hu
    · exact .later ho.ne_separator ((sets_cons_of_plain hu).2 h)

end Words

/-! ### An option of a command without subcommands -/

section Lookup

variable {s : Scope} {o : Opt} {n v : String} {l : Bool} {g : List (String × String)}
  {ps words : List String} {m : Matches}

theorem Cmd.Keeps.of_mem_opts (hc : s.cmd.Keeps n) (hglobals : ∀ o ∈ s.globals, o.name ≠ n)
    (ho : o ∈ s.opts) (hname : o.name = n) :
    o.short = none ∧ o.envVar = none ∧ s.cmd.subs = [] := by
  rcases Scope.mem_opts_iff.1 ho with ho | ho
  · exact hc.opts o ho hname
  · exact absurd hname (hglobals o ho)

/-- One more option is given. -/
theorem lookup_cons_given {P Q : Prop} {u : String} (hP : o.name = n → P)
    (hfresh : g.lookup o.name = none) :
    P ∧ ((o.name, u) :: g).lookup n = some v ∨ Q ↔
      P ∧ g.lookup n = some v ∨ (o.name = n ∧ u = v ∨ Q) := by
  by_cases hname : o.name = n
  · subst hname
    simp [hfresh, hP rfl]
  · simp [lookup_cons_of_ne (Ne.symm hname), hname]

/-- What a line says of an option is what its words set it to, wherever they stand. -/
theorem Reads.lookup_innermost (h : Reads s l g ps words m) (hs : s.cmd.Every (Cmd.Keeps n))
    (hglobals : ∀ o ∈ s.globals, o.name ≠ n) (hps : n ∉ ps) (hne : n ≠ "") (hn : '=' ∉ n.toList) :
    m.innermost.lookup n = some v ↔
      s.cmd.subs = [] ∧ g.lookup n = some v ∨ l = false ∧ Sets n v words := by
  induction h with
  | @done s l g ps m he =>
    obtain ⟨rfl, hsub, -⟩ := he
    rw [Matches.innermost, List.lookup_append,
      State.lookup_fromEnvironment fun o ho hname => (hs.here.of_mem_opts hglobals ho hname).2.1,
      Option.none_or]
    simp [hsub rfl, not_sets_nil]
  | @operand s l g p ps w rest m hw ha _ ih =>
    obtain ⟨hp, hps⟩ : n ≠ p ∧ n ∉ ps := by simpa using hps
    refine (ih hs hglobals hps).trans ?_
    rw [lookup_cons_of_ne hp]
    exact or_congr_right (and_congr_right fun hl => (sets_cons_of_plain (hw hl).2).symm)
  | @option s g ps o w u rest m _ ho ha _ ih =>
    have hkeeps := hs.here.of_mem_opts hglobals ho.mem_opts
    have hsubs : o.name = n → s.cmd.subs = [] := fun h => (hkeeps h).2.2
    refine (ih hs hglobals hps).trans ((lookup_cons_given hsubs ha.fresh).trans ?_)
    simp [sets_option hn ho fun h => (hkeeps h).1]
  | @optionApart s g ps o w u rest m _ ho hu ha _ ih =>
    have hkeeps := hs.here.of_mem_opts hglobals ho.mem_opts
    have hsubs : o.name = n → s.cmd.subs = [] := fun h => (hkeeps h).2.2
    refine (ih hs hglobals hps).trans ((lookup_cons_given hsubs ha.fresh).trans ?_)
    simp [sets_optionApart hn ho hu fun h => (hkeeps h).1]
  | separator _ _ ih =>
    refine (ih hs hglobals hps).trans ?_
    simp [not_sets_separator hne]
  | @command s g ps w c rest m m' _ hc _ he ih =>
    obtain ⟨rfl, -⟩ := he
    have hmem := Cmd.mem_subs_of_sub? hc
    have hplain : IsPlain w := Cmd.name_of_sub? hc ▸ hs.here.subs c hmem
    refine (ih (hs.sub hc) hglobals (hs.sub hc).here.operands).trans ?_
    simp [sets_cons_of_plain hplain, List.ne_nil_of_mem hmem]

end Lookup

/-! ### The innermost command -/

/-- The command below a command that a path leads to. -/
def Cmd.at? : Cmd → List String → Option Cmd
  | c, [] => some c
  | c, n :: ns => (c.sub? n).bind (·.at? ns)

theorem Cmd.Every.at? {P : Cmd → Prop} {path : List String} {c d : Cmd} (h : c.Every P)
    (hd : c.at? path = some d) : P d := by
  induction path generalizing c with
  | nil =>
    cases hd
    exact h.here
  | cons n path ih =>
    obtain ⟨e, he, hd⟩ := Option.bind_eq_some_iff.1 hd
    exact ih (h.sub he) hd

namespace Scope

/-- What is given is known to the command, and its option accepts it. -/
structure Knows (s : Scope) (given : List (String × String)) : Prop where
  known : ∀ n v, given.lookup n = some v → n ∈ s.cmd.operands ∨ ∃ o ∈ s.opts, o.name = n
  accepted : ∀ n v, given.lookup n = some v → ∀ o, s.long? n = some o → o.accepts v = true

variable {s : Scope} {g : List (String × String)} {n v : String}

theorem knows_nil : s.Knows [] := ⟨nofun, nofun⟩

theorem Knows.cons (hg : s.Knows g) (ha : s.Admits g n v)
    (hn : n ∈ s.cmd.operands ∨ ∃ o ∈ s.opts, o.name = n) : s.Knows ((n, v) :: g) := by
  refine ⟨fun n' v' h => ?_, fun n' v' h => ?_⟩ <;> rw [List.lookup_cons] at h <;> split at h
  · next heq => exact eq_of_beq heq ▸ hn
  · exact hg.known n' v' h
  · next heq =>
    cases h
    exact eq_of_beq heq ▸ ha.accepted
  · exact hg.accepted n' v' h

end Scope

/-- Where a line ends, its innermost command ends. -/
theorem Reads.exists_ends {s : Scope} {l : Bool} {g : List (String × String)}
    {ps words : List String} {m : Matches} (h : Reads s l g ps words m) (hg : s.Knows g)
    (hps : ∀ p ∈ ps, p ∈ s.cmd.operands) :
    ∃ c given, s.cmd.at? m.path = some c ∧ (s.enter c).Knows given ∧
      (s.enter c).Ends given none (.mk m.innermost none) := by
  induction h with
  | @done s l g ps m he =>
    obtain rfl := he.eq
    exact ⟨s.cmd, g, rfl, hg, he⟩
  | operand _ ha _ ih =>
    obtain ⟨hp, hps⟩ := List.forall_mem_cons.1 hps
    exact ih (hg.cons ha (.inl hp)) hps
  | option _ ho ha _ ih => exact ih (hg.cons ha (.inr ⟨_, ho.mem_opts, rfl⟩)) hps
  | optionApart _ ho _ ha _ ih => exact ih (hg.cons ha (.inr ⟨_, ho.mem_opts, rfl⟩)) hps
  | separator _ _ ih => exact ih hg hps
  | command _ hc _ he ih =>
    obtain ⟨rfl, -⟩ := he
    obtain ⟨d, given, hd, hknows, hends⟩ := ih Scope.knows_nil fun _ => id
    refine ⟨d, given, ?_, hknows, hends⟩
    rw [Matches.path, Cmd.at?, Cmd.name_of_sub? hc, hc]
    exact hd

end PanelClient.CommandLine

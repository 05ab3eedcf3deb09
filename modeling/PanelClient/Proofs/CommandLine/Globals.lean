import PanelClient.Proofs.CommandLine.Line
import Mathlib.Data.List.Nodup

/-!
# Options that may stand anywhere

A command and the commands below it know the same few options. On a line such an option may be put
before any word that is not behind `--`, among the words of whichever command, and the line says the
same as before and besides what the option says.

* `Laced` : options are put among the words of a line;
* `Cmd.Apart`, `Opt.IsSpare`, `Scope.Anywhere` : what a grammar must be like for that;
* `Reads.laced` : what the line says then;
* `Invocation.parse_laced` : so it is with the lines of the program.
-/

namespace PanelClient.CommandLine

/-- Options with their values are put among the words, each at some place. -/
inductive Laced : (options : List (String × String)) → (words laced : List String) → Prop where
  | nil : Laced [] [] []
  | word {os ws ws'} (w : String) (h : Laced os ws ws') : Laced os (w :: ws) (w :: ws')
  | option {os ws ws'} (n v : String) (h : Laced os ws ws') :
    Laced ((n, v) :: os) ws (assignment n v :: ws')

/-- A word that is plain, or an option with its value whose name is none of these. -/
inductive IsOwn (names : List String) : String → Prop where
  | plain {w : String} (h : IsPlain w) : IsOwn names w
  | assignment {n : String} (hn : n ∉ names) (hequals : '=' ∉ n.toList) (v : String) :
    IsOwn names (assignment n v)

/-- Nothing of the command itself goes by these names, and all its subcommands have plain ones. -/
structure Cmd.Apart (names : List String) (c : Cmd) : Prop where
  opts : ∀ o ∈ c.opts, o.name ∉ names
  requiredWith : ∀ o ∈ c.opts, ∀ needs ∈ o.requiredWith, needs.1 ∉ names
  operands : ∀ p ∈ c.operands, p ∉ names
  subs : ∀ d ∈ c.subs, IsPlain d.name

instance (names : List String) : DecidablePred (Cmd.Apart names) := fun c =>
  decidable_of_iff
    ((∀ o ∈ c.opts, o.name ∉ names) ∧ (∀ o ∈ c.opts, ∀ needs ∈ o.requiredWith, needs.1 ∉ names) ∧
      (∀ p ∈ c.operands, p ∉ names) ∧ ∀ d ∈ c.subs, IsPlain d.name)
    ⟨fun ⟨h₁, h₂, h₃, h₄⟩ => ⟨h₁, h₂, h₃, h₄⟩, fun ⟨h₁, h₂, h₃, h₄⟩ => ⟨h₁, h₂, h₃, h₄⟩⟩

/-- The option is never needed, only the line gives it, and its name can be written. -/
structure Opt.IsSpare (o : Opt) : Prop where
  required : o.required = false
  requiredWith : o.requiredWith = none
  envVar : o.envVar = none
  ne_help : o.name ≠ "help"
  ne_version : o.name ≠ "version"
  no_equals : '=' ∉ o.name.toList

namespace Scope

/-- The names of the options that may stand anywhere. -/
def names (s : Scope) : List String := s.globals.map Opt.name

/-- The options that may stand anywhere are spare, and told from all else by their names. -/
structure Anywhere (s : Scope) : Prop where
  nodup : s.names.Nodup
  spare : ∀ o ∈ s.globals, o.IsSpare
  apart : s.cmd.Every (Cmd.Apart s.names)

/-- Each of the options may stand anywhere, is there once and has a value that is accepted. -/
structure Chosen (s : Scope) (options : List (String × String)) : Prop where
  nodup : (options.map Prod.fst).Nodup
  accepted : ∀ n v, (n, v) ∈ options → ∃ o ∈ s.globals, o.name = n ∧ o.accepts v = true

end Scope

/-- Under all other names the same is given. -/
def Agree (names : List String) (g g' : List (String × String)) : Prop :=
  ∀ n ∉ names, g'.lookup n = g.lookup n

/-- The second line says the same about the commands, and says further the values of these options.
-/
structure SaysAlso (names : List String) (options : List (String × String)) (m m' : Matches) :
    Prop where
  path : m'.path = m.path
  innermost : Agree names m.innermost m'.innermost
  global? : ∀ n ∈ names, m'.global? n = options.lookup n

/-! ### Words of its own -/

section Own

variable {names : List String} {s : Scope} {o : Opt} {w v : String}

theorem IsOwn.ne_separator (hw : IsOwn names w) : w ≠ "--" := by
  cases hw with
  | plain h => exact fun heq => absurd (heq ▸ h) (by decide)
  | assignment => exact assignment_ne_separator _ _

theorem IsOwn.not_takes_none (hw : IsOwn names w) : ¬ s.Takes o w none := by
  intro ho
  cases hw with
  | plain h => exact ho.not_plain h
  | assignment _ hequals => cases (ho.of_assignment hequals).2

theorem IsOwn.name_not_mem (hw : IsOwn names w) (ho : s.Takes o w (some v)) : o.name ∉ names := by
  cases hw with
  | plain h => exact absurd h ho.not_plain
  | assignment hn hequals => exact (ho.of_assignment hequals).1 ▸ hn

end Own

/-! ### What is given -/

section Given

variable {names : List String} {g g' : List (String × String)} {n v : String}

theorem Agree.cons (h : Agree names g g') (n v : String) :
    Agree names ((n, v) :: g) ((n, v) :: g') := by
  intro n' hn'
  rw [List.lookup_cons, List.lookup_cons, h n' hn']

theorem Agree.cons_right (h : Agree names g g') (hn : n ∈ names) (v : String) :
    Agree names g ((n, v) :: g') := by
  intro n' hn'
  have hne : n' ≠ n := fun heq => hn' (heq ▸ hn)
  rw [lookup_cons_of_ne hne, h n' hn']

end Given

namespace Scope

open State (fromEnvironment isNeeded)

variable {s : Scope} {g g' os : List (String × String)} {n v w : String} {c : Cmd} {o : Opt}

theorem Anywhere.enter (hs : s.Anywhere) (hc : s.cmd.sub? w = some c) : (s.enter c).Anywhere :=
  ⟨hs.nodup, hs.spare, hs.apart.sub hc⟩

theorem Anywhere.named (hs : s.Anywhere) (ho : o ∈ s.globals) : s.Named o o.name := by
  have hspare := hs.spare o ho
  refine ⟨?_, hspare.ne_help, fun _ => hspare.ne_version, hspare.no_equals⟩
  have hopts : s.cmd.opts.find? (·.name == o.name) = none :=
    List.find?_eq_none.2 fun o' ho' heq =>
      hs.apart.here.opts o' ho' (eq_of_beq heq ▸ List.mem_map_of_mem ho)
  obtain ⟨o', ho'⟩ : ∃ o', s.globals.find? (·.name == o.name) = some o' :=
    Option.isSome_iff_exists.1 (List.find?_isSome.2 ⟨o, ho, beq_self_eq_true _⟩)
  have hname : o'.name = o.name := by simpa using List.find?_some ho'
  rw [long?, opts, List.find?_append, hopts, ho', Option.none_or,
    List.inj_on_of_nodup_map hs.nodup (List.mem_of_find?_eq_some ho') ho hname]

/-- A word that is not plain is no subcommand. -/
theorem Anywhere.stays (hs : s.Anywhere) (hw : ¬ IsPlain w) : s.Stays w where
  isHelp := by
    have hne : w ≠ "help" := fun h => hw (h ▸ by decide)
    simp [Cmd.isHelp, hne]
  sub? := by
    refine Option.eq_none_iff_forall_not_mem.2 fun c hc => hw ?_
    exact Cmd.name_of_sub? hc ▸ hs.apart.here.subs c (Cmd.mem_subs_of_sub? hc)

theorem Admits.agree (h : s.Admits g n v) (hg : Agree s.names g g') (hn : n ∉ s.names) :
    s.Admits g' n v :=
  ⟨(hg n hn).trans h.fresh, h.accepted⟩

theorem Chosen.mem_names (h : s.Chosen os) (hmem : (n, v) ∈ os) : n ∈ s.names := by
  obtain ⟨o, ho, rfl, -⟩ := h.accepted n v hmem
  exact List.mem_map_of_mem ho

theorem Chosen.tail (h : s.Chosen ((n, v) :: os)) : s.Chosen os :=
  ⟨(List.nodup_cons.1 h.nodup).2, fun n u hmem => h.accepted n u (List.mem_cons_of_mem _ hmem)⟩

theorem Chosen.ne_head (h : s.Chosen ((n, v) :: os)) {n' u : String} (hmem : (n', u) ∈ os) :
    n' ≠ n :=
  fun heq => (List.nodup_cons.1 h.nodup).1 (heq ▸ List.mem_map.2 ⟨_, hmem, rfl⟩)

/-! ### The end of a command -/

theorem Anywhere.fromEnvironment_eq (hs : s.Anywhere) (hg : Agree s.names g g') :
    fromEnvironment s g' = fromEnvironment s g := by
  refine List.filterMap_congr fun o ho => ?_
  rcases mem_opts_iff.1 ho with ho | ho
  · rw [hg o.name (hs.apart.here.opts o ho)]
  · rw [(hs.spare o ho).envVar]
    rfl

theorem Anywhere.lookup_fromEnvironment (hs : s.Anywhere) (hn : n ∈ s.names) :
    (fromEnvironment s g).lookup n = none := by
  refine State.lookup_fromEnvironment fun o ho hname => ?_
  rcases mem_opts_iff.1 ho with ho | ho
  · exact absurd (hname ▸ hn) (hs.apart.here.opts o ho)
  · exact (hs.spare o ho).envVar

/-- A command that ends also ends where more of the options that may stand anywhere are given. -/
theorem Ends.agree {sub : Option (String × Matches)} {m : Matches} (he : s.Ends g sub m)
    (hs : s.Anywhere) (hg : Agree s.names g g') {sub' : Option (String × Matches)}
    (hsub : sub' = none → sub = none) :
    s.Ends g' sub' (.mk (fromEnvironment s g' ++ g') sub') ∧
      Agree s.names m.given (fromEnvironment s g' ++ g') := by
  obtain ⟨rfl, hnone, hoperands, hneeded⟩ := he
  have hgiven : Agree s.names (fromEnvironment s g ++ g) (fromEnvironment s g' ++ g') := by
    intro n hn
    rw [hs.fromEnvironment_eq hg, List.lookup_append, List.lookup_append, hg n hn]
  refine ⟨⟨rfl, hnone ∘ hsub, fun p hp => ?_, fun o ho hn => ?_⟩, hgiven⟩
  · exact (congrArg Option.isSome (hgiven p (hs.apart.here.operands p hp))).trans (hoperands p hp)
  rcases mem_opts_iff.1 ho with ho' | ho'
  · refine (congrArg Option.isSome (hgiven o.name (hs.apart.here.opts o ho'))).trans
      (hneeded o ho (Eq.trans ?_ hn))
    rw [isNeeded, isNeeded]
    cases hwith : o.requiredWith with
    | none => rfl
    | some needs =>
      obtain ⟨n, v⟩ := needs
      exact congrArg (fun x => o.required || x == some v)
        (hgiven n (hs.apart.here.requiredWith o ho' (n, v) hwith)).symm
  · rw [isNeeded, (hs.spare o ho').required, (hs.spare o ho').requiredWith] at hn
    cases hn

end Scope

/-! ### Laced lines -/

section

variable {s : Scope} {g g' os : List (String × String)} {ps ws ws' front front' back : List String}
  {m : Matches}

/-- Where a line ends, it ends as well with more of these options given. -/
theorem Scope.Ends.saysAlso (he : s.Ends g none m) (hs : s.Anywhere) (hg : Agree s.names g g') :
    ∃ m', s.Ends g' none m' ∧ SaysAlso s.names g' m m' := by
  obtain ⟨he', hgiven⟩ := he.agree hs hg fun h : none = none => h
  obtain ⟨rfl, -⟩ := he
  refine ⟨_, he', rfl, hgiven, fun n hn => ?_⟩
  rw [Matches.global?, List.lookup_append, hs.lookup_fromEnvironment hn, Option.none_or]

theorem SaysAlso.congr {names : List String} {os' : List (String × String)} {m m' : Matches}
    (h : SaysAlso names os m m') (hos : ∀ n ∈ names, os'.lookup n = os.lookup n) :
    SaysAlso names os' m m' :=
  ⟨h.path, h.innermost, fun n hn => (h.global? n hn).trans (hos n hn).symm⟩

/-- Behind `--` there are operands only. -/
theorem Reads.agree_literal {l : Bool} (h : Reads s l g ps ws m) (hs : s.Anywhere) (hl : l = true)
    (hps : ∀ p ∈ ps, p ∉ s.names) (hg : Agree s.names g g') :
    ∃ m', Reads s l g' ps ws m' ∧ SaysAlso s.names g' m m' := by
  induction h generalizing g' with
  | done he =>
    obtain ⟨m', he', hsaid⟩ := he.saysAlso hs hg
    exact ⟨m', .done he', hsaid⟩
  | @operand s l g p ps w rest m hw ha _ ih =>
    obtain ⟨hp, hps⟩ := List.forall_mem_cons.1 hps
    obtain ⟨m', h', hsaid⟩ := ih hs hl hps (hg.cons p w)
    exact ⟨m', .operand hw (ha.agree hg hp) h', hsaid.congr fun n hn =>
      (lookup_cons_of_ne fun heq : n = p => hp (heq ▸ hn)).symm⟩
  | _ => cases hl

/-- What is left of a line from `--` on says the same where more of these options are given. -/
theorem Reads.agree (h : Reads s false g ps back m) (hs : s.Anywhere)
    (hback : back = [] ∨ ∃ rest, back = "--" :: rest) (hps : ∀ p ∈ ps, p ∉ s.names)
    (hg : Agree s.names g g') : ∃ m', Reads s false g' ps back m' ∧ SaysAlso s.names g' m m' := by
  rcases hback with rfl | ⟨rest, rfl⟩
  · cases h with
    | done he =>
      obtain ⟨m', he', hsaid⟩ := he.saysAlso hs hg
      exact ⟨m', .done he', hsaid⟩
  · cases h with
    | operand hw => exact absurd (hw rfl).2 (by decide)
    | option _ ho => exact absurd rfl ho.ne_separator
    | optionApart _ ho => exact absurd rfl ho.ne_separator
    | separator hw h =>
      obtain ⟨m', h', hsaid⟩ := h.agree_literal hs rfl hps hg
      exact ⟨m', .separator hw h', hsaid⟩
    | command _ hc => exact nomatch (hs.stays (show ¬ IsPlain "--" by decide)).sub?.symm.trans hc

/-- An option that may stand anywhere is put before what is left of a line. -/
theorem Reads.assignment {o : Opt} {v : String} (h : Reads s false ((o.name, v) :: g) ps ws m)
    (hs : s.Anywhere) (ho : o ∈ s.globals) (hv : o.accepts v = true)
    (hfresh : g.lookup o.name = none) :
    Reads s false g ps (assignment o.name v :: ws) m := by
  have hnamed := hs.named ho
  have hadmits : s.Admits g o.name v := by
    refine ⟨hfresh, fun o' ho' => ?_⟩
    cases hnamed.long?.symm.trans ho'
    exact hv
  exact .option (hs.stays (not_isPlain_assignment _ _)) (.nameWith hnamed v) hadmits h

/-- **Options may stand anywhere.** If a line is read, with words of its own up to the first `--`,
then so is the line with further options among those words; it says the same, and what they say. -/
theorem Reads.laced (hlaced : Laced os front front') (h : Reads s false g ps (front ++ back) m)
    (hs : s.Anywhere) (hown : ∀ w ∈ front, IsOwn s.names w)
    (hback : back = [] ∨ ∃ rest, back = "--" :: rest) (hps : ∀ p ∈ ps, p ∉ s.names)
    (hg : Agree s.names g g') (hos : s.Chosen os)
    (hfresh : ∀ n v, (n, v) ∈ os → g'.lookup n = none) :
    ∃ m', Reads s false g' ps (front' ++ back) m' ∧ SaysAlso s.names (os ++ g') m m' := by
  induction hlaced generalizing s g g' ps m with
  | nil => exact h.agree hs hback hps hg
  | @word os ws ws' w _ ih =>
    obtain ⟨hw, hown⟩ := List.forall_mem_cons.1 hown
    -- with what is given under another name, the rest of the line is laced
    have hgiven {ps' : List String} (p v : String) (hp : p ∉ s.names)
        (hps' : ∀ p ∈ ps', p ∉ s.names) (h : Reads s false ((p, v) :: g) ps' (ws ++ back) m) :
        ∃ m', Reads s false ((p, v) :: g') ps' (ws' ++ back) m' ∧
          SaysAlso s.names (os ++ g') m m' := by
      have hne {n : String} (hn : n ∈ s.names) : n ≠ p := fun heq => hp (heq ▸ hn)
      obtain ⟨m', h', hsaid⟩ := ih h hs hown hps' (hg.cons p v) hos fun n u hmem =>
        (lookup_cons_of_ne (hne (hos.mem_names hmem))).trans (hfresh n u hmem)
      refine ⟨m', h', hsaid.congr fun n hn => ?_⟩
      rw [List.lookup_append, List.lookup_append, lookup_cons_of_ne (hne hn)]
    rw [List.cons_append] at h
    generalize hline : ws ++ back = line at h
    cases h with
    | operand hw ha h =>
      subst hline
      obtain ⟨hp, hps⟩ := List.forall_mem_cons.1 hps
      obtain ⟨m', h', hsaid⟩ := hgiven _ _ hp hps h
      exact ⟨m', .operand hw (ha.agree hg hp) h', hsaid⟩
    | option hstays ho ha h =>
      subst hline
      have hp := hw.name_not_mem ho
      obtain ⟨m', h', hsaid⟩ := hgiven _ _ hp hps h
      exact ⟨m', .option hstays ho (ha.agree hg hp) h', hsaid⟩
    | optionApart _ ho => exact absurd ho hw.not_takes_none
    | separator => exact absurd rfl hw.ne_separator
    | @command _ _ _ _ c _ _ _ hhelp hc h he =>
      -- the options that are left are given to the subcommand, and those of the command stay
      subst hline
      obtain ⟨m', h', hsaid⟩ := ih h (hs.enter hc) hown ((hs.enter hc).apart.here.operands)
        (fun _ _ => rfl) ⟨hos.nodup, hos.accepted⟩ fun _ _ _ => rfl
      obtain ⟨he', -⟩ := he.agree hs hg fun h : some (c.name, m') = none => nomatch h
      obtain ⟨rfl, -⟩ := he
      refine ⟨_, .command hhelp hc h' he', ?_, hsaid.innermost, fun n hn => ?_⟩
      · rw [Matches.path, Matches.path, hsaid.path]
      · rw [Matches.global?, hsaid.global? n hn, List.append_nil, List.lookup_append,
          List.lookup_append, hs.lookup_fromEnvironment hn, Option.none_or]
  | @option os ws ws' n v _ ih =>
    obtain ⟨o, ho, rfl, hv⟩ := hos.accepted n v List.mem_cons_self
    obtain ⟨m', h', hsaid⟩ := ih h hs hown hps (hg.cons_right (List.mem_map_of_mem ho) v) hos.tail
      fun n u hmem =>
        (lookup_cons_of_ne (hos.ne_head hmem)).trans (hfresh n u (List.mem_cons_of_mem _ hmem))
    refine ⟨m', h'.assignment hs ho hv (hfresh o.name v List.mem_cons_self),
      hsaid.congr fun n _ => ?_⟩
    have hnone : os.lookup o.name = none :=
      List.lookup_eq_none_iff.2 fun p hmem => bne_iff_ne.2 (hos.ne_head hmem).symm
    by_cases heq : n = o.name
    · subst heq
      simp [List.lookup_append, hnone]
    · simp [List.lookup_append, lookup_cons_of_ne heq]

end

/-! ### The program -/

theorem anywhere_globals (env : String → Option String) :
    Scope.Anywhere ⟨grammar, globals, env⟩ where
  nodup := show (globals.map Opt.name).Nodup by decide
  spare o ho := by
    simp only [globals, List.mem_cons, List.not_mem_nil, or_false] at ho
    rcases ho with rfl | rfl | rfl <;> exact ⟨rfl, rfl, rfl, by decide, by decide, by decide⟩
  apart := show grammar.Every (Cmd.Apart (globals.map Opt.name)) by decide

end PanelClient.CommandLine

namespace PanelClient.Invocation

open CommandLine

variable {env : String → Option String}

theorem commandOf_congr {m m' : Matches} (hpath : m'.path = m.path)
    (h : Agree (globals.map Opt.name) m.innermost m'.innermost) : commandOf m' = commandOf m := by
  simp only [commandOf, hpath, h "username" (by decide), h "password" (by decide),
    h "name" (by decide), h "mc-version" (by decide), h "type" (by decide), h "forge" (by decide)]

/-- **The options of the program may stand anywhere.** If a line of plain words and options with
their values, none of which is of those that may stand anywhere, is an invocation, perhaps with `--`
and operands behind it, then so is the line with some of those that may stand anywhere, each put
before any of its words or at its end: it is the same command, with just the values of these
options, whatever they look like; only an empty file name is refused. -/
theorem parse_laced {options : List (String × String)} {front front' back : List String}
    {i : Invocation} (hparse : parse env (front ++ back) = .ok i)
    (hown : ∀ w ∈ front, IsOwn ["base-url", "config", "route"] w)
    (hback : back = [] ∨ ∃ operands, back = "--" :: operands)
    (hnodup : (options.map Prod.fst).Nodup)
    (hnames : ∀ o ∈ options, o.1 ∈ ["base-url", "config", "route"])
    (hconfig : ("config", "") ∉ options) (hlaced : Laced options front front') :
    parse env (front' ++ back) =
      .ok { baseUrl := options.lookup "base-url"
            config := options.lookup "config"
            route := (options.lookup "route").getD "/"
            command := i.command } := by
  obtain ⟨m, hreads, rfl⟩ := parse_eq_ok_iff.1 hparse
  have hchosen : Scope.Chosen ⟨grammar, globals, env⟩ options := by
    refine ⟨hnodup, fun n v hmem => ?_⟩
    have hn := hnames _ hmem
    simp only [List.mem_cons, List.not_mem_nil, or_false] at hn
    rcases hn with rfl | rfl | rfl
    · exact ⟨_, .head _, rfl, rfl⟩
    · refine ⟨_, .tail _ (.head _), rfl, ?_⟩
      have hv : v ≠ "" := fun h => hconfig (h ▸ hmem)
      simpa using hv
    · exact ⟨_, .tail _ (.tail _ (.head _)), rfl, rfl⟩
  obtain ⟨m', hreads', hsaid⟩ := hreads.laced hlaced (anywhere_globals env) hown hback nofun
    (fun _ _ => rfl) hchosen fun _ _ _ => rfl
  have hglobal : ∀ n ∈ globals.map Opt.name, m'.global? n = options.lookup n := fun n hn => by
    rw [hsaid.global? n hn, List.append_nil]
  refine parse_eq_ok_iff.2 ⟨m', hreads', ?_⟩
  rw [ofMatches, hglobal "base-url" (by decide), hglobal "config" (by decide),
    hglobal "route" (by decide), commandOf_congr hsaid.path hsaid.innermost]
  rfl

theorem parse_laced_create :
    parse (fun _ => none) ["--route=/a=b", "instance", "create", "--base-url=",
      "--mc-version=1.20.1", "--", "--config=x"] =
      .ok { baseUrl := some "", config := none, route := "/a=b",
            command := .create ⟨"--config=x", "1.20.1", .vanilla, none⟩ } := by
  have hparse : parse (fun _ => none)
      (["instance", "create", "--mc-version=1.20.1"] ++ ["--", "--config=x"]) =
      .ok ⟨none, none, "/", .create ⟨"--config=x", "1.20.1", .vanilla, none⟩⟩ := by rfl
  have hown : ∀ w ∈ ["instance", "create", "--mc-version=1.20.1"],
      IsOwn ["base-url", "config", "route"] w := by
    refine List.forall_mem_cons.2 ⟨.plain (by decide), List.forall_mem_cons.2 ⟨.plain (by decide),
      List.forall_mem_singleton.2 ?_⟩⟩
    exact .assignment (show "mc-version" ∉ _ by decide) (by decide) "1.20.1"
  exact parse_laced hparse hown (.inr ⟨_, rfl⟩) (by decide) (by decide) (by decide)
    (.option "route" "/a=b" (.word _ (.word _ (.option "base-url" "" (.word _ .nil)))))

end PanelClient.Invocation

import PanelClient.CommandLine.Invocation
import PanelClient.Proofs.CommandLine.Word
import PanelClient.Proofs.Json.Token

/-!
# Lines of a grammar

What a command line says, without the way in which it is read. The reader keeps an option or operand
pending until the next one comes, so that a fault of the word in between is reported first; to what
a faultless line says this makes no difference, and here everything takes effect at once.

* `Scope.Admits`, `Scope.Ends` : what may be given besides what is given already, and when it is
  enough;
* `Reads` : the rest of a line, from the point where some options and operands are given, says
  something;
* `Cmd.Every` : all commands of a grammar have a property;
* `read_eq_ok_iff` : the reader accepts the lines that say something, and returns what they say;
  `Invocation.parse_eq_ok_iff` : so it is with the lines of the program.
-/

namespace PanelClient.CommandLine

open Json (bind_eq_ok)

/-! ### Commands of a grammar -/

namespace Cmd

/-- A command and all commands below it are so. -/
inductive Every (P : Cmd → Prop) : Cmd → Prop where
  | mk {c : Cmd} (here : P c) (below : ∀ d ∈ c.subs, Every P d) : Every P c

variable {P : Cmd → Prop} {c d : Cmd} {name : String}

theorem mem_subs_of_sub? (h : c.sub? name = some d) : d ∈ c.subs := List.mem_of_find?_eq_some h

theorem name_of_sub? (h : c.sub? name = some d) : d.name = name := by
  simpa using List.find?_some h

theorem Every.here (h : c.Every P) : P c := by
  cases h with
  | mk here _ => exact here

theorem Every.sub (h : c.Every P) (hd : c.sub? name = some d) : d.Every P := by
  cases h with
  | mk _ below => exact below d (mem_subs_of_sub? hd)

theorem every_mk {versioned : Bool} {opts : List Opt} {operands : List String} {subs : List Cmd} :
    (Cmd.mk name versioned opts operands subs).Every P ↔
      P (.mk name versioned opts operands subs) ∧ ∀ d ∈ subs, d.Every P :=
  ⟨fun | .mk here below => ⟨here, below⟩, fun ⟨here, below⟩ => .mk here below⟩

mutual

/-- Looks whether a command and all commands below it are so. -/
def checkEvery (P : Cmd → Prop) [DecidablePred P] : Cmd → Bool
  | .mk name versioned opts operands subs =>
    decide (P (.mk name versioned opts operands subs)) && checkAll P subs

/-- Looks whether these commands and all commands below them are so. -/
def checkAll (P : Cmd → Prop) [DecidablePred P] : List Cmd → Bool
  | [] => true
  | c :: cs => checkEvery P c && checkAll P cs

end

mutual

theorem checkEvery_iff [DecidablePred P] : ∀ c : Cmd, checkEvery P c = true ↔ c.Every P
  | .mk name versioned opts operands subs => by
    rw [checkEvery, Bool.and_eq_true, decide_eq_true_iff, checkAll_iff subs, every_mk]

theorem checkAll_iff [DecidablePred P] :
    ∀ cs : List Cmd, checkAll P cs = true ↔ ∀ c ∈ cs, c.Every P
  | [] => by simp [checkAll]
  | c :: cs => by
    rw [checkAll, Bool.and_eq_true, checkEvery_iff c, checkAll_iff cs, List.forall_mem_cons]

end

instance [DecidablePred P] : DecidablePred (Every P) := fun c =>
  decidable_of_iff _ (checkEvery_iff c)

end Cmd

/-! ### What a line says -/

namespace Scope

variable (s : Scope)

/-- A value may be given under a name: there is none yet, and the option of the name accepts it. -/
structure Admits (given : List (String × String)) (name value : String) : Prop where
  fresh : given.lookup name = none
  accepted : ∀ o, s.long? name = some o → o.accepts value = true

/-- A command ends where this is given: with what the environment adds nothing is missing. -/
structure Ends (given : List (String × String)) (sub : Option (String × Matches)) (m : Matches) :
    Prop where
  eq : m = .mk (State.fromEnvironment s given ++ given) sub
  sub : sub = none → s.cmd.subs = []
  operands : ∀ p ∈ s.cmd.operands, (m.given.lookup p).isSome = true
  needed : ∀ o ∈ s.opts, State.isNeeded m.given o = true → (m.given.lookup o.name).isSome = true

end Scope

/-- From a point of a line where some options and operands are given and some operands are still to
come, the words that follow say this about the command and its subcommands. `literal`: `--` stands
before them. -/
inductive Reads : (s : Scope) → (literal : Bool) → (given : List (String × String)) →
    (operands words : List String) → Matches → Prop where
  | done {s : Scope} {l : Bool} {g ps m} (h : s.Ends g none m) : Reads s l g ps [] m
  | operand {s : Scope} {l : Bool} {g p ps w rest m} (hw : l = false → s.Stays w ∧ IsPlain w)
    (ha : s.Admits g p w) (h : Reads s l ((p, w) :: g) ps rest m) :
    Reads s l g (p :: ps) (w :: rest) m
  | option {s : Scope} {g ps o w v rest m} (hw : s.Stays w) (ho : s.Takes o w (some v))
    (ha : s.Admits g o.name v) (h : Reads s false ((o.name, v) :: g) ps rest m) :
    Reads s false g ps (w :: rest) m
  | optionApart {s : Scope} {g ps o w v rest m} (hw : s.Stays w) (ho : s.Takes o w none)
    (hv : IsPlain v) (ha : s.Admits g o.name v) (h : Reads s false ((o.name, v) :: g) ps rest m) :
    Reads s false g ps (w :: v :: rest) m
  | separator {s : Scope} {g ps rest m} (hw : s.Stays "--") (h : Reads s true g ps rest m) :
    Reads s false g ps ("--" :: rest) m
  | command {s : Scope} {g ps w c rest m m'} (hw : s.cmd.isHelp w = false)
    (hc : s.cmd.sub? w = some c) (h : Reads (s.enter c) false [] c.operands rest m)
    (he : s.Ends g (some (c.name, m)) m') : Reads s false g ps (w :: rest) m'

/-! ### What is given -/

theorem lookup_cons_of_ne {g : List (String × String)} {n n' v : String} (h : n ≠ n') :
    ((n', v) :: g).lookup n = g.lookup n := by
  rw [List.lookup_cons, beq_false_of_ne h]

namespace State

variable {s : Scope} {st st' : State} {o : Opt} {w name : String} {value : Option String}

theorem mem_fromEnvironment {g : List (String × String)} {v : String}
    (h : (name, v) ∈ fromEnvironment s g) :
    ∃ o ∈ s.opts, o.name = name ∧ o.envVar.isSome = true := by
  obtain ⟨o, ho, hgiven⟩ := List.mem_filterMap.1 h
  obtain ⟨var, hvar, hgiven⟩ := Option.bind_eq_some_iff.1 hgiven
  obtain ⟨v', -, hgiven⟩ := Option.bind_eq_some_iff.1 hgiven
  split at hgiven
  · cases hgiven
  · cases hgiven
    exact ⟨o, ho, rfl, by rw [hvar]; rfl⟩

theorem lookup_fromEnvironment {g : List (String × String)}
    (h : ∀ o ∈ s.opts, o.name = name → o.envVar = none) :
    (fromEnvironment s g).lookup name = none := by
  rw [List.lookup_eq_none_iff]
  rintro ⟨n, v⟩ hmem
  obtain ⟨o, ho, rfl, hvar⟩ := mem_fromEnvironment hmem
  refine bne_iff_ne.2 fun heq => ?_
  rw [h o ho heq.symm] at hvar
  cases hvar

/-! ### What is pending -/

/-- With what is pending in effect, this is given. -/
inductive Gives (s : Scope) (st : State) : List (String × String) → Prop where
  | settled (h : st.pending = none) : Gives s st st.given
  | pending {n v : String} (h : st.pending = some (n, some v)) (ha : s.Admits st.given n v) :
    Gives s st ((n, v) :: st.given)

variable {g : List (String × String)} {sub : Option (String × Matches)} {m : Matches}

theorem put_eq_ok_iff {v : String} :
    st.put s name (some v) = .ok st' ↔
      s.Admits st.given name v ∧ st' = { st with given := (name, v) :: st.given } := by
  rw [put]
  cases hfresh : st.given.lookup name with
  | some _ =>
    refine ⟨nofun, fun h => ?_⟩
    rw [h.1.fresh] at hfresh
    cases hfresh
  | none =>
    have haccepted : ((s.long? name).map (·.accepts v)).getD true = true ↔
        ∀ o, s.long? name = some o → o.accepts v = true := by
      cases s.long? name <;> simp
    rw [if_neg (by simp)]
    split
    · next h =>
      rw [haccepted] at h
      exact ⟨fun hok => ⟨⟨hfresh, h⟩, (Except.ok.inj hok).symm⟩, fun hok => by rw [hok.2]⟩
    · next h =>
      rw [haccepted] at h
      exact ⟨nofun, fun hok => absurd hok.1.accepted h⟩

theorem gives_settled_iff {a l : Bool} {ps : List String} {g' : List (String × String)} :
    Gives s ⟨g, none, a, l, ps⟩ g' ↔ g' = g := by
  constructor
  · rintro (- | h)
    · rfl
    · cases h
  · rintro rfl
    exact .settled rfl

theorem gives_pending_iff {a l : Bool} {ps : List String} {g' : List (String × String)} :
    Gives s ⟨g, some (name, value), a, l, ps⟩ g' ↔
      ∃ v, value = some v ∧ s.Admits g name v ∧ g' = (name, v) :: g := by
  constructor
  · rintro (h | ⟨h, ha⟩)
    · cases h
    · cases h
      exact ⟨_, rfl, ha, rfl⟩
  · rintro ⟨v, rfl, ha, rfl⟩
    exact .pending rfl ha

theorem gives_separated_iff : Gives s { st with literal := true } g ↔ st.Gives s g := by
  constructor
  · rintro (h | ⟨h, ha⟩)
    · exact .settled h
    · exact .pending h ha
  · rintro (h | ⟨h, ha⟩)
    · exact .settled h
    · exact .pending h ha

theorem settle_eq_ok_iff :
    st.settle s = .ok st' ↔
      ∃ g, st.Gives s g ∧ st' = ⟨g, none, false, st.literal, st.operands⟩ := by
  rw [settle]
  split
  · next n value hpending =>
    cases value with
    | none =>
      refine ⟨nofun, ?_⟩
      rintro ⟨g, hnone | hsome, -⟩
      · cases hpending.symm.trans hnone
      · cases hpending.symm.trans hsome
    | some v =>
      rw [put_eq_ok_iff]
      constructor
      · rintro ⟨ha, rfl⟩
        exact ⟨_, .pending hpending ha, rfl⟩
      · rintro ⟨g, hnone | ⟨hsome, ha⟩, rfl⟩
        · cases hpending.symm.trans hnone
        · cases hpending.symm.trans hsome
          exact ⟨ha, rfl⟩
  · next hpending =>
    constructor
    · intro h
      cases h
      exact ⟨_, .settled hpending, by rw [← hpending]⟩
    · rintro ⟨g, hnone | hsome, rfl⟩
      · rw [hpending]
      · cases hpending.symm.trans hsome

theorem option_some_eq_ok_iff {v : String} :
    st.option s name (some v) = .ok st' ↔ ∃ g, st.Gives s g ∧ s.Admits g name v ∧
      st' = ⟨(name, v) :: g, none, false, st.literal, st.operands⟩ := by
  rw [option, bind_eq_ok]
  simp only [settle_eq_ok_iff, put_eq_ok_iff]
  constructor
  · rintro ⟨_, ⟨g, hg, rfl⟩, ha, rfl⟩
    exact ⟨g, hg, ha, rfl⟩
  · rintro ⟨g, hg, ha, rfl⟩
    exact ⟨_, ⟨g, hg, rfl⟩, ha, rfl⟩

theorem option_none_eq_ok_iff :
    st.option s name none = .ok st' ↔ ∃ g, st.Gives s g ∧
      st' = ⟨g, some (name, none), true, st.literal, st.operands⟩ := by
  rw [option, bind_eq_ok]
  simp only [settle_eq_ok_iff]
  constructor
  · rintro ⟨_, ⟨g, hg, rfl⟩, h⟩
    exact ⟨g, hg, (Except.ok.inj h).symm⟩
  · rintro ⟨g, hg, rfl⟩
    exact ⟨_, ⟨g, hg, rfl⟩, rfl⟩

theorem operand_eq_ok_iff :
    st.operand s w = .ok st' ↔ ∃ g p ps, st.Gives s g ∧ st.operands = p :: ps ∧
      st' = ⟨g, some (p, some w), false, st.literal, ps⟩ := by
  rw [operand]
  split
  · next p ps hoperands =>
    rw [bind_eq_ok]
    simp only [settle_eq_ok_iff]
    constructor
    · rintro ⟨_, ⟨g, hg, rfl⟩, h⟩
      exact ⟨g, p, ps, hg, hoperands, (Except.ok.inj h).symm⟩
    · rintro ⟨g, p', ps', hg, hoperands', rfl⟩
      cases hoperands.symm.trans hoperands'
      exact ⟨_, ⟨g, hg, rfl⟩, rfl⟩
  · next hoperands =>
    refine ⟨fun h => ?_, ?_⟩
    · split at h
      · cases h
      · split at h <;> cases h
    · rintro ⟨g, p, ps, -, hoperands', -⟩
      cases hoperands.symm.trans hoperands'

theorem finish_eq_ok_iff : st.finish s sub = .ok m ↔ ∃ g, st.Gives s g ∧ s.Ends g sub m := by
  rw [finish, bind_eq_ok]
  simp only [settle_eq_ok_iff]
  constructor
  · rintro ⟨_, ⟨g, hg, rfl⟩, h⟩
    refine ⟨g, hg, ?_⟩
    dsimp only at h
    split at h
    · cases h
    next hsub =>
    split at h
    · next hall =>
      cases h
      simp only [Bool.and_eq_true, List.all_eq_true] at hall
      refine ⟨rfl, fun hnone => ?_, hall.1, fun o ho hneeded => ?_⟩
      · simpa [hnone] using hsub
      · have hn : isNeeded (fromEnvironment s g ++ g) o = true := hneeded
        exact (Bool.or_eq_true_iff.1 (hall.2 o ho)).resolve_right (by simp [hn])
    · cases h
  · rintro ⟨g, hg, rfl, hsub, hoperands, hneeded⟩
    refine ⟨_, ⟨g, hg, rfl⟩, ?_⟩
    have hsub' : ¬ (sub.isNone && !s.cmd.subs.isEmpty) = true := by
      cases sub with
      | none => simp [hsub rfl]
      | some _ => simp
    dsimp only
    rw [if_neg hsub', if_pos]
    · rfl
    · simp only [Bool.and_eq_true, List.all_eq_true]
      refine ⟨hoperands, fun o ho => ?_⟩
      by_cases hn : isNeeded (fromEnvironment s g ++ g) o = true
      · exact Bool.or_eq_true_iff.2 (.inl (hneeded o ho hn))
      · simp [hn]

end State

/-! ### The reader -/

section

open State

variable {s : Scope} {st st' : State} {w : String} {ws : List String} {m : Matches}

/-- The first word of a line is a subcommand, or it is read as a word of the command. -/
theorem readFrom_cons_eq_ok_iff :
    readFrom s st (w :: ws) = .ok m ↔
      ((st.literal = false → st.awaiting = false → s.Stays w) ∧
        ∃ st', st.word s w = .ok st' ∧ readFrom s st' ws = .ok m) ∨
      (st.literal = false ∧ st.awaiting = false ∧ s.cmd.isHelp w = false ∧
        ∃ c m', s.cmd.sub? w = some c ∧ readFrom (s.enter c) (.start c) ws = .ok m' ∧
          st.finish s (some (c.name, m')) = .ok m) := by
  by_cases hfree : st.literal = false ∧ st.awaiting = false
  · obtain ⟨hl, ha⟩ := hfree
    rw [readFrom]
    simp only [hl, ha, Bool.not_false, Bool.and_self, Bool.true_and, if_true, true_and,
      forall_const]
    cases hhelp : s.cmd.isHelp w with
    | true => exact ⟨nofun, fun h => h.elim (fun h => nomatch hhelp.symm.trans h.1.isHelp) (nofun)⟩
    | false =>
      cases hsub : s.cmd.sub? w with
      | none =>
        refine ⟨fun h => .inl ⟨⟨hhelp, hsub⟩, bind_eq_ok.1 h⟩, ?_⟩
        rintro (⟨-, h⟩ | ⟨-, c, m', hc, -⟩)
        · exact bind_eq_ok.2 h
        · cases hc
      | some c =>
        constructor
        · intro h
          obtain ⟨m', hm', hfinish⟩ := bind_eq_ok.1 h
          exact .inr ⟨rfl, c, m', rfl, hm', hfinish⟩
        · rintro (⟨hstays, -⟩ | ⟨-, c', m', hc, hm', hfinish⟩)
          · cases hsub.symm.trans hstays.sub?
          · cases hc
            exact bind_eq_ok.2 ⟨m', hm', hfinish⟩
  · have hbusy : (!st.literal && !st.awaiting) = false := by
      cases hl : st.literal <;> cases ha : st.awaiting <;> simp_all
    rw [readFrom]
    simp only [hbusy, Bool.false_and]
    refine ⟨fun h => .inl ⟨fun hl ha => absurd ⟨hl, ha⟩ hfree, bind_eq_ok.1 h⟩, ?_⟩
    rintro (⟨-, h⟩ | ⟨hl, ha, -⟩)
    · exact bind_eq_ok.2 h
    · exact absurd ⟨hl, ha⟩ hfree

/-- A word is an operand if it stands behind `--`, or if it is plain and no value is awaited. -/
theorem word_eq_operand (hst : st.literal = true ∨ st.awaiting = false)
    (hw : st.literal = true ∨ IsPlain w) : st.word s w = st.operand s w := by
  cases hl : st.literal with
  | true => rw [word, if_pos hl]
  | false =>
    rw [hl] at hst hw
    rw [word_of_plain hl (hw.resolve_left Bool.false_ne_true), hst.resolve_left Bool.false_ne_true]

theorem exists_gives_of_literal (h : readFrom s st ws = .ok m) (hl : st.literal = true) :
    ∃ g, st.Gives s g := by
  cases ws with
  | nil =>
    obtain ⟨g, hg, -⟩ := finish_eq_ok_iff.1 h
    exact ⟨g, hg⟩
  | cons w ws =>
    rcases readFrom_cons_eq_ok_iff.1 h with ⟨-, st', hword, -⟩ | ⟨hl', -⟩
    · rw [word_eq_operand (.inl hl) (.inl hl)] at hword
      obtain ⟨g, -, -, hg, -⟩ := operand_eq_ok_iff.1 hword
      exact ⟨g, hg⟩
    · cases hl.symm.trans hl'

theorem exists_gives_of_option {name : String} {value : Option String}
    (h : st.option s name value = .ok st') : ∃ g, st.Gives s g := by
  cases value with
  | none => exact (option_none_eq_ok_iff.1 h).imp fun _ => And.left
  | some v => exact (option_some_eq_ok_iff.1 h).imp fun _ => And.left

/-- Where the value of an option is awaited, a plain word is that value, and nothing else will do.
-/
theorem exists_value {o : Opt} {g : List (String × String)} {ps : List String}
    (h : readFrom s ⟨g, some (o.name, none), true, false, ps⟩ ws = .ok m) :
    ∃ v rest, ws = v :: rest ∧ IsPlain v ∧
      readFrom s ⟨g, some (o.name, some v), false, false, ps⟩ rest = .ok m := by
  have hnone {l : Bool} {g' : List (String × String)} :
      ¬ Gives s ⟨g, some (o.name, none), true, l, ps⟩ g' := fun hg => by
    obtain ⟨v, hv, -⟩ := gives_pending_iff.1 hg
    cases hv
  cases ws with
  | nil =>
    obtain ⟨g', hg', -⟩ := finish_eq_ok_iff.1 h
    exact absurd hg' hnone
  | cons v rest =>
    obtain ⟨-, st', hword, hrest⟩ :=
      (readFrom_cons_eq_ok_iff.1 h).resolve_right fun h => nomatch h.2.1
    rcases word_cases rfl hword with rfl | ⟨o', value, ho⟩ | hv
    · -- whatever comes behind `--`, the option has no value
      rw [word_separator rfl] at hword
      cases hword
      obtain ⟨g', hg'⟩ := exists_gives_of_literal hrest rfl
      exact absurd hg' hnone
    · rw [word_of_takes rfl ho] at hword
      obtain ⟨g', hg'⟩ := exists_gives_of_option hword
      exact absurd hg' hnone
    · rw [word_of_plain rfl hv] at hword
      cases hword
      exact ⟨v, rest, rfl, hv, hrest⟩

/-- What the reader returns is what the line says. -/
theorem reads_of_readFrom {words : List String} {s : Scope} {st : State} {m : Matches}
    (h : readFrom s st words = .ok m) (hst : st.literal = true ∨ st.awaiting = false) :
    ∃ g, st.Gives s g ∧ Reads s st.literal g st.operands words m := by
  match words with
  | [] =>
    obtain ⟨g, hg, he⟩ := finish_eq_ok_iff.1 h
    exact ⟨g, hg, .done he⟩
  | w :: ws =>
    rcases readFrom_cons_eq_ok_iff.1 h with ⟨hstays, st', hword, hrest⟩ |
      ⟨hl, ha, hhelp, c, m', hc, hm', hfinish⟩
    · by_cases hplain : st.literal = true ∨ IsPlain w
      · -- an operand
        rw [word_eq_operand hst hplain] at hword
        obtain ⟨g, p, ps, hg, hps, rfl⟩ := operand_eq_ok_iff.1 hword
        obtain ⟨g', hg', hreads⟩ := reads_of_readFrom hrest (.inr rfl)
        obtain ⟨_, ⟨⟩, hadmits, rfl⟩ := gives_pending_iff.1 hg'
        rw [hps]
        refine ⟨g, hg, .operand (fun hl => ⟨hstays hl ?_, ?_⟩) hadmits hreads⟩
        · exact hst.resolve_left (by simp [hl])
        · exact hplain.resolve_left (by simp [hl])
      · obtain ⟨hl, hw⟩ : st.literal = false ∧ ¬ IsPlain w := by simpa using hplain
        have ha := hst.resolve_left (by simp [hl])
        rcases word_cases hl hword with rfl | ⟨o, value, ho⟩ | hw'
        · rw [word_separator hl] at hword
          cases hword
          obtain ⟨g, hg, hreads⟩ := reads_of_readFrom hrest (.inl rfl)
          rw [hl]
          exact ⟨g, gives_separated_iff.1 hg, .separator (hstays hl ha) hreads⟩
        · rw [word_of_takes hl ho] at hword
          cases value with
          | some v =>
            obtain ⟨g, hg, hadmits, rfl⟩ := option_some_eq_ok_iff.1 hword
            obtain ⟨g', hg', hreads⟩ := reads_of_readFrom hrest (.inr rfl)
            obtain rfl := gives_settled_iff.1 hg'
            rw [hl] at hreads ⊢
            exact ⟨g, hg, .option (hstays hl ha) ho hadmits hreads⟩
          | none =>
            obtain ⟨g, hg, rfl⟩ := option_none_eq_ok_iff.1 hword
            rw [hl] at hrest
            obtain ⟨v, rest, rfl, hv, hrest⟩ := exists_value hrest
            obtain ⟨g', hg', hreads⟩ := reads_of_readFrom hrest (.inr rfl)
            obtain ⟨_, ⟨⟩, hadmits, rfl⟩ := gives_pending_iff.1 hg'
            rw [hl]
            exact ⟨g, hg, .optionApart (hstays hl ha) ho hv hadmits hreads⟩
        · exact absurd hw' hw
    · obtain ⟨g, hg, he⟩ := finish_eq_ok_iff.1 hfinish
      obtain ⟨g', hg', hreads⟩ := reads_of_readFrom hm' (.inr rfl)
      obtain rfl := gives_settled_iff.1 hg'
      rw [hl]
      exact ⟨g, hg, .command hhelp hc hreads he⟩
termination_by words.length

/-- What the line says is what the reader returns. -/
theorem Reads.readFrom_eq {l : Bool} {g : List (String × String)} {ps : List String}
    (h : Reads s l g ps ws m) : ∀ st, st.Gives s g → st.literal = l → st.operands = ps →
      (l = true ∨ st.awaiting = false) → readFrom s st ws = .ok m := by
  induction h with
  | done he => exact fun st hg _ _ _ => finish_eq_ok_iff.2 ⟨_, hg, he⟩
  | @operand s l g p ps w rest m hw hadmits _ ih =>
    rintro st hg rfl hps hst
    have hplain : st.literal = true ∨ IsPlain w := by
      cases hl : st.literal with
      | true => exact .inl rfl
      | false => exact .inr (hw hl).2
    refine readFrom_cons_eq_ok_iff.2 (.inl ⟨fun hl _ => (hw hl).1, _, ?_,
      ih _ (gives_pending_iff.2 ⟨_, rfl, hadmits, rfl⟩) rfl rfl (.inr rfl)⟩)
    rw [word_eq_operand hst hplain]
    exact operand_eq_ok_iff.2 ⟨_, _, _, hg, hps, rfl⟩
  | @option s g ps o w v rest m hw ho hadmits _ ih =>
    rintro st hg hl hps hst
    refine readFrom_cons_eq_ok_iff.2 (.inl ⟨fun _ _ => hw,
      ⟨(o.name, v) :: g, none, false, st.literal, st.operands⟩, ?_,
      ih _ (gives_settled_iff.2 rfl) hl hps (.inr rfl)⟩)
    rw [word_of_takes hl ho]
    exact option_some_eq_ok_iff.2 ⟨g, hg, hadmits, rfl⟩
  | @optionApart s g ps o w v rest m hw ho hv hadmits _ ih =>
    rintro st hg hl hps hst
    refine readFrom_cons_eq_ok_iff.2 (.inl ⟨fun _ _ => hw,
      ⟨g, some (o.name, none), true, st.literal, st.operands⟩, ?_, ?_⟩)
    · rw [word_of_takes hl ho]
      exact option_none_eq_ok_iff.2 ⟨g, hg, rfl⟩
    · refine readFrom_cons_eq_ok_iff.2 (.inl ⟨nofun, _, word_of_plain hl hv, ?_⟩)
      exact ih _ (gives_pending_iff.2 ⟨_, rfl, hadmits, rfl⟩) hl hps (.inr rfl)
  | separator hw _ ih =>
    rintro st hg hl hps hst
    refine readFrom_cons_eq_ok_iff.2 (.inl ⟨fun _ _ => hw, _, word_separator hl, ?_⟩)
    exact ih _ (gives_separated_iff.2 hg) rfl hps (.inl rfl)
  | command hhelp hc _ he ih =>
    rintro st hg hl hps hst
    have ha := hst.resolve_left nofun
    have hreads := ih (.start _) (gives_settled_iff.2 rfl) rfl rfl (.inr rfl)
    exact readFrom_cons_eq_ok_iff.2
      (.inr ⟨hl, ha, hhelp, _, _, hc, hreads, finish_eq_ok_iff.2 ⟨_, hg, he⟩⟩)

/-- **The reader accepts the lines that say something,** and returns what they say. -/
theorem read_eq_ok_iff {cmd : Cmd} {globals : List Opt} {env : String → Option String} :
    read cmd globals env ws = .ok m ↔ Reads ⟨cmd, globals, env⟩ false [] cmd.operands ws m := by
  constructor
  · intro h
    obtain ⟨g, hg, hreads⟩ := reads_of_readFrom h (.inr rfl)
    obtain rfl := gives_settled_iff.1 hg
    exact hreads
  · intro h
    exact h.readFrom_eq _ (gives_settled_iff.2 rfl) rfl rfl (.inr rfl)

end

end PanelClient.CommandLine

namespace PanelClient.Invocation

open CommandLine

/-- The program accepts the lines of its grammar that say something. -/
theorem parse_eq_ok_iff {env : String → Option String} {words : List String} {i : Invocation} :
    parse env words = .ok i ↔
      ∃ m, Reads ⟨grammar, globals, env⟩ false [] grammar.operands words m ∧ ofMatches m = i := by
  simp only [← read_eq_ok_iff, parse]
  cases read grammar globals env words <;> simp [Functor.map, Except.map]

end PanelClient.Invocation

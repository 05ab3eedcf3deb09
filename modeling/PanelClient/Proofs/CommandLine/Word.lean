import PanelClient.CommandLine.Reading

/-!
# Words of a command line

Where no `--` has been read, a word is `--` itself, an option, or plain.

* `IsPlain` : it is no option and not `--`;
* `Scope.Takes` : it is an option of the command, with or without its value;
* `State.word_cases` : a word that is read is one of the three. What becomes of it:
  `State.word_separator`, `State.word_of_takes`, `State.word_of_plain`;
* `Scope.Takes.of_name`, `Scope.Takes.of_assignment` : a word that starts with two dashes says which
  option it is.
-/

namespace PanelClient.CommandLine

/-- A word that is no option and not `--`. A lone dash is such a word. -/
def IsPlain (w : String) : Prop := ∀ c r, w.toList ≠ '-' :: c :: r

theorem isPlain_iff {w : String} : IsPlain w ↔ w.toList.head? ≠ some '-' ∨ w.toList.length = 1 := by
  rw [IsPlain]
  rcases w.toList with _ | ⟨d, _ | ⟨c, r⟩⟩ <;> simp

instance : DecidablePred IsPlain := fun _ => decidable_of_iff' _ isPlain_iff

/-- The word that gives a value to the option of a name. -/
def assignment (name value : String) : String := "--" ++ name ++ "=" ++ value

namespace Scope

variable (s : Scope)

/-- The word is no subcommand. -/
structure Stays (w : String) : Prop where
  isHelp : s.cmd.isHelp w = false
  sub? : s.cmd.sub? w = none

/-- The name calls the option. -/
structure Named (o : Opt) (name : String) : Prop where
  long? : s.long? name = some o
  ne_help : name ≠ "help"
  ne_version : s.cmd.versioned = true → name ≠ "version"
  no_equals : '=' ∉ name.toList

/-- The letter calls the option. -/
structure Lettered (o : Opt) (c : Char) : Prop where
  short? : s.short? c = some o
  ne_dash : c ≠ '-'
  ne_help : c ≠ 'h'
  ne_version : s.cmd.versioned = true → c ≠ 'V'

/-- The words that are an option, with the value that is written to it if there is one. -/
inductive Takes (o : Opt) : String → Option String → Prop where
  | name {n : String} (h : s.Named o n) (hn : n ≠ "") : Takes o ("--" ++ n) none
  | nameWith {n : String} (h : s.Named o n) (v : String) : Takes o (assignment n v) (some v)
  | letter {c : Char} (h : s.Lettered o c) : Takes o ("-" ++ String.singleton c) none
  | letterWith {c : Char} (h : s.Lettered o c) (v : String) :
    Takes o ("-" ++ String.singleton c ++ "=" ++ v) (some v)
  | letterJoined {c : Char} (h : s.Lettered o c) {v : String} (hv : v ≠ "")
    (heq : v.toList.head? ≠ some '=') : Takes o ("-" ++ String.singleton c ++ v) (some v)

end Scope

theorem toList_dashes (n : String) : ("--" ++ n).toList = '-' :: '-' :: n.toList := by
  rw [String.toList_append]
  rfl

theorem toList_dash (c : Char) : ("-" ++ String.singleton c).toList = ['-', c] := by
  rw [String.toList_append, String.toList_singleton]
  rfl

theorem toList_equals (w v : String) : (w ++ "=" ++ v).toList = w.toList ++ '=' :: v.toList := by
  rw [String.toList_append, String.toList_append, List.append_assoc]
  rfl

theorem toList_assignment (n v : String) :
    (assignment n v).toList = '-' :: '-' :: (n.toList ++ '=' :: v.toList) := by
  rw [assignment, toList_equals, toList_dashes]
  rfl

theorem not_isPlain_assignment (n v : String) : ¬ IsPlain (assignment n v) :=
  fun h => h _ _ (toList_assignment n v)

theorem assignment_ne_separator (n v : String) : assignment n v ≠ "--" := by
  intro h
  simpa [toList_assignment] using congrArg String.toList h

/-- A name without `=` stands before the first `=` of a word. -/
theorem span_name {n : List Char} (hn : '=' ∉ n) {rest : List Char}
    (hrest : rest = [] ∨ ∃ v, rest = '=' :: v) :
    (n ++ rest).takeWhile (· != '=') = n ∧ (n ++ rest).dropWhile (· != '=') = rest := by
  have hpos : ∀ c ∈ n, (c != '=') = true := fun c hc => by
    simpa using fun h : c = '=' => hn (h ▸ hc)
  rw [List.takeWhile_append_of_pos hpos, List.dropWhile_append_of_pos hpos]
  rcases hrest with rfl | ⟨v, rfl⟩ <;> simp

/-- A name without `=` and what stands behind it can be told from the word. -/
theorem name_inj {n n' rest rest' : List Char} (hn : '=' ∉ n) (hn' : '=' ∉ n')
    (hrest : rest = [] ∨ ∃ v, rest = '=' :: v) (hrest' : rest' = [] ∨ ∃ v, rest' = '=' :: v)
    (h : n ++ rest = n' ++ rest') : n = n' ∧ rest = rest' := by
  obtain ⟨htake, hdrop⟩ := span_name hn hrest
  obtain ⟨htake', hdrop'⟩ := span_name hn' hrest'
  rw [h] at htake hdrop
  exact ⟨htake.symm.trans htake', hdrop.symm.trans hdrop'⟩

namespace Scope

variable {s : Scope} {o : Opt} {w : String} {value : Option String}

theorem mem_opts_iff : o ∈ s.opts ↔ o ∈ s.cmd.opts ∨ o ∈ s.globals := List.mem_append

theorem mem_opts_of_long? {n : String} (h : s.long? n = some o) : o ∈ s.opts :=
  List.mem_of_find?_eq_some h

theorem name_of_long? {n : String} (h : s.long? n = some o) : o.name = n := by
  simpa using List.find?_some h

theorem short_of_short? {c : Char} (h : s.short? c = some o) : o.short = some c := by
  simpa using List.find?_some h

theorem Takes.mem_opts (h : s.Takes o w value) : o ∈ s.opts := by
  cases h with
  | name h => exact mem_opts_of_long? h.long?
  | nameWith h => exact mem_opts_of_long? h.long?
  | letter h => exact List.mem_of_find?_eq_some h.short?
  | letterWith h => exact List.mem_of_find?_eq_some h.short?
  | letterJoined h => exact List.mem_of_find?_eq_some h.short?

theorem Takes.not_plain (h : s.Takes o w value) : ¬ IsPlain w := by
  intro hw
  cases h with
  | name => exact hw _ _ (toList_dashes _)
  | nameWith h v => exact not_isPlain_assignment _ _ hw
  | letter h => exact hw _ _ (toList_dash _)
  | letterWith h v => exact hw _ _ (by rw [toList_equals, toList_dash]; rfl)
  | letterJoined h => exact hw _ _ (by rw [String.toList_append, toList_dash]; rfl)

/-- An option that is written with two dashes is called by its name. -/
theorem Takes.of_dashes (h : s.Takes o w value) {r : List Char} (hw : w.toList = '-' :: '-' :: r) :
    s.Named o o.name ∧ (value = none ∧ r = o.name.toList ∧ o.name ≠ "" ∨
      ∃ v, value = some v ∧ r = o.name.toList ++ '=' :: v.toList) := by
  have hletter {c : Char} (hc : s.Lettered o c) (rest : List Char) :
      w.toList ≠ '-' :: c :: rest := by
    rw [hw]
    exact fun heq => hc.ne_dash (List.cons.inj (List.cons.inj heq).2).1.symm
  cases h with
  | @name n h hn =>
    obtain rfl := name_of_long? h.long?
    rw [toList_dashes] at hw
    cases hw
    exact ⟨h, .inl ⟨rfl, rfl, hn⟩⟩
  | @nameWith n h v =>
    obtain rfl := name_of_long? h.long?
    rw [toList_assignment] at hw
    cases hw
    exact ⟨h, .inr ⟨v, rfl, rfl⟩⟩
  | letter h => exact absurd (toList_dash _) (hletter h _)
  | letterWith h v =>
    exact absurd (by rw [toList_equals, toList_dash]; rfl) (hletter h ('=' :: v.toList))
  | @letterJoined c h v =>
    exact absurd (by rw [String.toList_append, toList_dash]; rfl) (hletter h v.toList)

theorem Takes.ne_separator (h : s.Takes o w value) : w ≠ "--" := by
  rintro rfl
  obtain ⟨-, ⟨-, hr, hne⟩ | ⟨v, -, hr⟩⟩ := h.of_dashes (r := []) rfl
  · exact hne (String.toList_eq_nil_iff.1 hr.symm)
  · simp at hr

theorem Takes.of_assignment {n v : String} (h : s.Takes o (assignment n v) value)
    (hn : '=' ∉ n.toList) : o.name = n ∧ value = some v := by
  obtain ⟨hnamed, ⟨-, hr, -⟩ | ⟨v', rfl, hr⟩⟩ := h.of_dashes (toList_assignment n v)
  · exact absurd (hr ▸ by simp) hnamed.no_equals
  · obtain ⟨hname, hvalue⟩ := name_inj hn hnamed.no_equals (.inr ⟨_, rfl⟩) (.inr ⟨_, rfl⟩) hr
    cases String.toList_inj.1 hname
    cases String.toList_inj.1 (List.cons.inj hvalue).2
    exact ⟨rfl, rfl⟩

theorem Takes.of_name {n : String} (h : s.Takes o ("--" ++ n) value) (hn : '=' ∉ n.toList) :
    o.name = n ∧ value = none := by
  obtain ⟨-, ⟨rfl, hr, -⟩ | ⟨v, -, hr⟩⟩ := h.of_dashes (toList_dashes n)
  · exact ⟨(String.toList_inj.1 hr).symm, rfl⟩
  · exact absurd (hr ▸ by simp) hn

end Scope

namespace State

variable {s : Scope} {st st' : State} {o : Opt} {w name : String} {value : Option String}

theorem word_separator (hl : st.literal = false) :
    st.word s "--" = .ok { st with literal := true } := by
  rw [word, if_neg (by simp [hl])]
  rfl

theorem request_ne_ok (e : UsageError) : st.request s e ≠ .ok st' := by
  rw [request]
  cases st.settle s <;> nofun

theorem longWord_of_named (h : s.Named o name) :
    st.longWord s name.toList = st.option s o.name none := by
  obtain ⟨htake, hdrop⟩ := span_name h.no_equals (.inl rfl)
  rw [List.append_nil] at htake hdrop
  have hversion : (s.cmd.versioned && name == "version") = false := by
    simpa using h.ne_version
  rw [longWord, htake, hdrop, String.ofList_toList, if_neg h.ne_help, hversion, h.long?]
  rfl

theorem longWord_of_named_with (h : s.Named o name) (v : List Char) :
    st.longWord s (name.toList ++ '=' :: v) = st.option s o.name (some (String.ofList v)) := by
  obtain ⟨htake, hdrop⟩ := span_name h.no_equals (.inr ⟨v, rfl⟩)
  have hversion : (s.cmd.versioned && name == "version") = false := by
    simpa using h.ne_version
  rw [longWord, htake, hdrop, String.ofList_toList, if_neg h.ne_help, hversion, h.long?]
  rfl

theorem shortWord_of_lettered {c : Char} (h : s.Lettered o c) (rest : List Char) :
    st.shortWord s c rest = st.option s o.name (match rest with
      | [] => none
      | '=' :: v => some (String.ofList v)
      | v => some (String.ofList v)) := by
  have hversion : (s.cmd.versioned && c == 'V') = false := by simpa using h.ne_version
  rw [shortWord.eq_def, if_neg h.ne_help, hversion, h.short?]
  rfl

/-- A word that starts with two dashes. -/
theorem word_of_dashes {r : List Char} (hl : st.literal = false) (hw : w.toList = '-' :: '-' :: r)
    (hr : r ≠ []) : st.word s w = st.longWord s r := by
  rw [word, if_neg (by simp [hl]), hw]
  cases r with
  | nil => exact absurd rfl hr
  | cons c r => rfl

/-- A word that starts with one dash. -/
theorem word_of_dash {c : Char} {r : List Char} (hl : st.literal = false)
    (hw : w.toList = '-' :: c :: r) (hc : c ≠ '-') : st.word s w = st.shortWord s c r := by
  rw [word, if_neg (by simp [hl]), hw]
  split
  · next h => exact absurd (List.cons.inj (List.cons.inj h).2).1 hc
  · next h => exact absurd (List.cons.inj (List.cons.inj h).2).1 hc
  · next h => cases h; rfl
  · next h => exact absurd rfl (h _ _)

theorem word_of_takes (hl : st.literal = false) (h : s.Takes o w value) :
    st.word s w = st.option s o.name value := by
  cases h with
  | name h hn => rw [word_of_dashes hl (toList_dashes _) (by simpa using hn), longWord_of_named h]
  | nameWith h v =>
    rw [word_of_dashes hl (toList_assignment _ v) (by simp), longWord_of_named_with h,
      String.ofList_toList]
  | letter h => rw [word_of_dash hl (toList_dash _) h.ne_dash, shortWord_of_lettered h]
  | @letterWith c h v =>
    have hw := toList_equals ("-" ++ String.singleton c) v
    rw [toList_dash] at hw
    rw [word_of_dash hl hw h.ne_dash, shortWord_of_lettered h]
    exact congrArg (fun v => st.option s o.name (some v)) String.ofList_toList
  | @letterJoined c h v hv heq =>
    have hw : ("-" ++ String.singleton c ++ v).toList = '-' :: c :: v.toList := by
      rw [String.toList_append, toList_dash]
      rfl
    rw [word_of_dash hl hw h.ne_dash, shortWord_of_lettered h]
    split
    · next hnil => exact absurd (String.toList_eq_nil_iff.1 hnil) hv
    · next hcons => exact absurd (by rw [hcons]; rfl) heq
    · rw [String.ofList_toList]

/-- What becomes of a plain word. -/
theorem word_of_plain (hl : st.literal = false) (hw : IsPlain w) :
    st.word s w = match st.awaiting, st.pending with
      | true, some (name, _) => .ok { st with pending := some (name, some w), awaiting := false }
      | _, _ => st.operand s w := by
  rw [word, if_neg (by simp [hl])]
  split
  · next h => exact absurd h (hw _ _)
  · next h => exact absurd h (hw _ _)
  · next h => exact absurd h (hw _ _)
  · rfl

theorem exists_takes_of_longWord {r : List Char} (hw : w.toList = '-' :: '-' :: r) (hr : r ≠ [])
    (h : st.longWord s r = .ok st') : ∃ o value, s.Takes o w value := by
  rw [longWord] at h
  split at h
  · split at h
    · cases h
    · exact absurd h (request_ne_ok _)
  next hhelp =>
  split at h
  · split at h
    · cases h
    · exact absurd h (request_ne_ok _)
  next hversion =>
  split at h
  · next o hlong =>
    have hsplit := List.takeWhile_append_dropWhile (p := (· != '=')) (l := r)
    have hnamed : s.Named o (String.ofList (r.takeWhile (· != '='))) := by
      refine ⟨hlong, hhelp, fun hv hn => hversion (by simp [hv, hn]), fun hmem => ?_⟩
      rw [String.toList_ofList] at hmem
      simpa using List.all_eq_true.1 List.all_takeWhile _ hmem
    cases hdrop : r.dropWhile (· != '=') with
    | nil =>
      rw [hdrop, List.append_nil] at hsplit
      rw [hsplit] at hnamed
      have heq : w = "--" ++ String.ofList r := String.toList_inj.1 (by
        rw [hw, toList_dashes, String.toList_ofList])
      exact ⟨o, none, heq ▸ .name hnamed (by simpa using hr)⟩
    | cons d v =>
      have hd := List.head?_dropWhile_not (· != '=') r
      rw [hdrop, List.head?_cons] at hd
      obtain rfl : d = '=' := by simpa using hd
      have heq : w = assignment (String.ofList (r.takeWhile (· != '='))) (String.ofList v) :=
        String.toList_inj.1 (by
          rw [hw, toList_assignment, String.toList_ofList, String.toList_ofList, ← hdrop, hsplit])
      exact ⟨o, some (String.ofList v), heq ▸ .nameWith hnamed _⟩
  · cases h

theorem exists_takes_of_shortWord {c : Char} {r : List Char} (hw : w.toList = '-' :: c :: r)
    (hc : c ≠ '-') (h : st.shortWord s c r = .ok st') : ∃ o value, s.Takes o w value := by
  rw [shortWord.eq_def] at h
  split at h
  · exact absurd h (request_ne_ok _)
  next hhelp =>
  split at h
  · exact absurd h (request_ne_ok _)
  next hversion =>
  split at h
  · next o hshort =>
    have hlettered : s.Lettered o c :=
      ⟨hshort, hc, hhelp, fun hv hn => hversion (by simp [hv, hn])⟩
    have hdash := toList_dash c
    match r with
    | [] =>
      have heq : w = "-" ++ String.singleton c := String.toList_inj.1 (hw.trans hdash.symm)
      exact ⟨o, none, heq ▸ .letter hlettered⟩
    | d :: v =>
      by_cases hd : d = '='
      · have heq : w = "-" ++ String.singleton c ++ "=" ++ String.ofList v :=
          String.toList_inj.1 (by rw [hw, toList_equals, hdash, String.toList_ofList, hd]; rfl)
        exact ⟨o, some (String.ofList v), heq ▸ .letterWith hlettered _⟩
      · have heq : w = "-" ++ String.singleton c ++ String.ofList (d :: v) :=
          String.toList_inj.1 (by
            rw [hw, String.toList_append, hdash, String.toList_ofList]; rfl)
        exact ⟨o, some (String.ofList (d :: v)),
          heq ▸ .letterJoined hlettered (by simp) (by simpa using hd)⟩
  · cases h

/-- The words that can be read where no `--` has been read. -/
theorem word_cases (hl : st.literal = false) (h : st.word s w = .ok st') :
    w = "--" ∨ (∃ o value, s.Takes o w value) ∨ IsPlain w := by
  by_cases hw : IsPlain w
  · exact .inr (.inr hw)
  obtain ⟨c, r, hw⟩ : ∃ c r, w.toList = '-' :: c :: r := by simpa [IsPlain] using hw
  by_cases hc : c = '-'
  · subst hc
    by_cases hr : r = []
    · subst hr
      exact .inl (String.toList_inj.1 hw)
    · rw [word_of_dashes hl hw hr] at h
      exact .inr (.inl (exists_takes_of_longWord hw hr h))
  · rw [word_of_dash hl hw hc] at h
    exact .inr (.inl (exists_takes_of_shortWord hw hc h))

end State

end PanelClient.CommandLine

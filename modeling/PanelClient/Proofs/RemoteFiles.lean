import Mathlib.Data.List.Induction
import Mathlib.Data.List.Nodup
import PanelClient.RemoteFiles

/-!
# Remote files as an ordered map

The files are kept in a plain list, in which an operation looks for the first entry of a path. That is
enough, since no path occurs twice: the list is a map from paths to entries, in the order in which the
entries were made.

* `RemoteFiles.Op`, `RemoteFiles.run` : what can be asked of the files, and a whole run;
* `RemoteFiles.step_entries` : all that one operation does: it ends the entry of a path, if any, and may
  make one at the end of the list;
* `RemoteFiles.Lasts` : an operation of a run has made an entry, and no later one has ended it.
  `RemoteFiles.exists_dated` : the entries after a run are those that last, the oldest first;
* `RemoteFiles.UploadedLast` : the last upload to a path, if the path was not deleted since;
* `RemoteFiles.list_append` : a listing is narrowed by a longer prefix;
* `RemoteFiles.refines_ordered_map` : what all of this means for every run.
-/

namespace PanelClient

namespace RemoteFiles

/-- A path with its content, which a directory has none of. -/
abbrev Entry := String × Option (List UInt8)

/-- What can be asked of the files. -/
inductive Op where
  | createDir (path : String)
  | upload (path : String) (content : List UInt8)
  | get (path : String)
  | list (start : String)
  | delete (path : String)
  | rename (src dst : String)
  deriving DecidableEq, Repr

namespace Op

/-- The operation is about a path. -/
def names (path : String) : Op → Bool
  | .createDir p | .upload p _ | .get p | .delete p => path == p
  | .list _ => false
  | .rename src dst => path == src || path == dst

/-- The operation ends the entry of a path, if there is one: it is taken away or replaced. -/
def ends (path : String) : Op → Bool
  | .upload p _ | .delete p => path == p
  | .createDir _ | .get _ | .list _ | .rename _ _ => false

/-- The entry that the operation makes. -/
def made? (fs : RemoteFiles) : Op → Option Entry
  | .createDir path => if fs.contains path then none else some (path, none)
  | .upload path content => some (path, some content)
  | .get _ | .list _ | .delete _ | .rename _ _ => none

end Op

/-- The files after an operation. -/
def step (fs : RemoteFiles) : Op → RemoteFiles
  | .createDir path => fs.createDir path
  | .upload path content => fs.upload path content
  | .delete path => (fs.delete path).2
  | .rename src dst => (fs.rename src dst).2
  | .get _ | .list _ => fs

/-- The files after a run of operations. -/
def run (fs : RemoteFiles) (ops : List Op) : RemoteFiles := ops.foldl step fs

/-- The paths that have an entry. -/
def paths (fs : RemoteFiles) : List String := fs.entries.map Prod.fst

/-- The operation number `t` of the run has made the entry, and none has ended it since. -/
def Lasts (ops : List Op) (t : Nat) (e : Entry) : Prop :=
  ∃ before op since, ops = before ++ op :: since ∧ before.length = t ∧
    op.made? (empty.run before) = some e ∧ ∀ op' ∈ since, op'.ends e.1 = false

/-- The content is that of the last upload to the path, which was not deleted since. -/
def UploadedLast (ops : List Op) (path : String) (content : List UInt8) : Prop :=
  ∃ before since, ops = before ++ .upload path content :: since ∧
    (∀ content', .upload path content' ∉ since) ∧ .delete path ∉ since

/-- `createDir` has made the entry of the path, which was neither uploaded to nor deleted since. -/
def CreatedLast (ops : List Op) (path : String) : Prop :=
  ∃ before since, ops = before ++ .createDir path :: since ∧ path ∉ (empty.run before).paths ∧
    (∀ content, .upload path content ∉ since) ∧ .delete path ∉ since

/-- The listed entries whose names begin with `start`, without it. -/
def narrowed (start : String) (ls : List Listed) : List Listed :=
  (ls.filter fun l => start.toList.isPrefixOf l.name.toList).map fun l =>
    ⟨String.ofList (l.name.toList.drop start.toList.length), l.isDir⟩

variable {fs : RemoteFiles} {ops : List Op} {op : Op} {path : String} {t : Nat} {e : Entry}

/-! ### One operation -/

theorem contains_iff : fs.contains path = true ↔ path ∈ fs.paths := by
  simp [contains, paths]

theorem run_concat (ops : List Op) (op : Op) : fs.run (ops ++ [op]) = (fs.run ops).step op := by
  simp [run]

/-- If no path occurs twice, to take away the first entry of a path is to take away every one. -/
theorem eraseP_eq_filter {es : List Entry} (h : (es.map Prod.fst).Nodup) (path : String) :
    es.eraseP (·.1 == path) = es.filter (·.1 != path) := by
  induction es with
  | nil => rfl
  | cons e es ih =>
    rw [List.map_cons, List.nodup_cons] at h
    by_cases he : e.1 = path
    · have hrest : ∀ e' ∈ es, (e'.1 != path) = true := by
        intro e' he'
        rw [bne_iff_ne, ← he]
        intro heq
        exact h.1 (heq ▸ List.mem_map_of_mem he')
      rw [List.eraseP_cons_of_pos (by simpa using he), List.filter_cons_of_neg (by simpa using he),
        List.filter_eq_self.2 hrest]
    · rw [List.eraseP_cons_of_neg (by simpa using he), List.filter_cons_of_pos (by simpa using he),
        ih h.2]

/-- **All that an operation does.** It ends the entry of a path, or none, and what it makes comes last;
the other entries stay in their order. -/
theorem step_entries (h : fs.paths.Nodup) (op : Op) :
    (fs.step op).entries = fs.entries.filter (fun e => !op.ends e.1) ++ (op.made? fs).toList := by
  cases op with
  | createDir path =>
    by_cases hc : fs.contains path = true <;> simp [step, createDir, Op.made?, Op.ends, hc]
  | upload path content => rfl
  | delete path =>
    have herase := eraseP_eq_filter h path
    exact herase.trans (List.append_nil _).symm
  | get path => simp [step, Op.ends, Op.made?]
  | list start => simp [step, Op.ends, Op.made?]
  | rename src dst => simp [step, rename, Op.ends, Op.made?]

/-- What an operation makes takes the place of any entry of its path. -/
theorem ends_of_made? (h : op.made? fs = some e) (he : e.1 ∈ fs.paths) : op.ends e.1 = true := by
  cases op with
  | createDir path =>
    rw [Op.made?] at h
    split_ifs at h with hc
    cases h
    exact absurd (contains_iff.2 he) hc
  | upload path content =>
    cases h
    exact beq_self_eq_true path
  | _ => cases h

theorem step_nodup (h : fs.paths.Nodup) (op : Op) : (fs.step op).paths.Nodup := by
  have hold : (fs.entries.filter fun e => !op.ends e.1).map Prod.fst =
      fs.paths.filter fun path => !op.ends path := by
    rw [paths, List.filter_map]
    rfl
  rw [paths, step_entries h, List.map_append, hold, List.nodup_append]
  refine ⟨h.filter _, by cases op.made? fs <;> simp, ?_⟩
  intro path hpath path' hpath' heq
  subst heq
  obtain ⟨e, he, rfl⟩ := List.mem_map.1 hpath'
  obtain ⟨hmem, hkept⟩ := List.mem_filter.1 hpath
  rw [ends_of_made? (Option.mem_toList.1 he) hmem] at hkept
  cases hkept

/-- **No path ever occurs twice.** -/
theorem run_nodup (ops : List Op) : (empty.run ops).paths.Nodup := by
  induction ops using List.reverseRecOn with
  | nil => exact List.nodup_nil
  | append_singleton ops op ih =>
    rw [run_concat]
    exact step_nodup ih op

/-! ### Which entries last -/

/-- What lasts after one more operation: what has lasted and is not ended, and what it makes. -/
theorem lasts_concat : Lasts (ops ++ [op]) t e ↔
    Lasts ops t e ∧ op.ends e.1 = false ∨ t = ops.length ∧ op.made? (empty.run ops) = some e := by
  constructor
  · rintro ⟨before, op', since, hsplit, rfl, hmade, hsince⟩
    rcases List.eq_nil_or_concat' since with rfl | ⟨since, last, rfl⟩
    · obtain ⟨rfl, hop⟩ := List.append_inj' hsplit rfl
      obtain rfl := List.singleton_inj.1 hop
      exact .inr ⟨rfl, hmade⟩
    · rw [← List.cons_append, ← List.append_assoc] at hsplit
      obtain ⟨rfl, hop⟩ := List.append_inj' hsplit rfl
      obtain rfl := List.singleton_inj.1 hop
      refine .inl ⟨⟨before, op', since, rfl, rfl, hmade, ?_⟩, ?_⟩
      · intro later hlater
        exact hsince later (List.mem_append_left _ hlater)
      · exact hsince op (by simp)
  · rintro (⟨⟨before, op', since, rfl, rfl, hmade, hsince⟩, hkept⟩ | ⟨rfl, hmade⟩)
    · refine ⟨before, op', since ++ [op], by simp, rfl, hmade, ?_⟩
      intro later hlater
      rcases List.mem_append.1 hlater with hlater | hlater
      · exact hsince later hlater
      · rwa [List.mem_singleton.1 hlater]
    · exact ⟨ops, op, [], rfl, rfl, hmade, by simp⟩

theorem Lasts.lt_length (h : Lasts ops t e) : t < ops.length := by
  obtain ⟨before, op, since, rfl, rfl, -⟩ := h
  simp

/-- **The entries after a run are those that last, the oldest first.** -/
theorem exists_dated (ops : List Op) : ∃ dated : List (Nat × Entry),
    dated.map Prod.snd = (empty.run ops).entries ∧
      dated.Pairwise (fun d d' => d.1 < d'.1) ∧ ∀ d, d ∈ dated ↔ Lasts ops d.1 d.2 := by
  -- operations are added at the end, so that what they make is the latest
  induction ops using List.reverseRecOn with
  | nil => exact ⟨[], rfl, List.Pairwise.nil, fun d => by simp [Lasts]⟩
  | append_singleton ops op ih =>
    obtain ⟨dated, hentries, hsorted, hmem⟩ := ih
    have hmade : ∀ d, d ∈ (op.made? (empty.run ops)).toList.map (Prod.mk ops.length) ↔
        d.1 = ops.length ∧ op.made? (empty.run ops) = some d.2 := by
      rintro ⟨t, e⟩
      rw [List.mem_map]
      constructor
      · rintro ⟨e', he', heq⟩
        cases heq
        exact ⟨rfl, Option.mem_toList.1 he'⟩
      · rintro ⟨rfl, he⟩
        exact ⟨e, Option.mem_toList.2 he, rfl⟩
    refine ⟨dated.filter (fun d => !op.ends d.2.1) ++
      (op.made? (empty.run ops)).toList.map (Prod.mk ops.length), ?_, ?_, ?_⟩
    · have hkept : (dated.filter fun d => !op.ends d.2.1).map Prod.snd =
          (empty.run ops).entries.filter fun e => !op.ends e.1 := by
        rw [← hentries, List.filter_map]
        rfl
      have hnew : ((op.made? (empty.run ops)).toList.map (Prod.mk ops.length)).map Prod.snd =
          (op.made? (empty.run ops)).toList := by
        rw [List.map_map]
        exact List.map_id _
      rw [run_concat, step_entries (run_nodup ops), List.map_append, hkept, hnew]
    · refine List.pairwise_append.2 ⟨hsorted.filter _, ?_, ?_⟩
      · cases op.made? (empty.run ops) <;> simp
      · intro d hd d' hd'
        have hlt := ((hmem d).1 (List.mem_filter.1 hd).1).lt_length
        rwa [((hmade d').1 hd').1]
    · intro d
      rw [List.mem_append, List.mem_filter, hmem, hmade, lasts_concat, Bool.not_eq_true']

theorem mem_entries_iff : e ∈ (empty.run ops).entries ↔ ∃ t, Lasts ops t e := by
  obtain ⟨dated, hentries, -, hmem⟩ := exists_dated ops
  rw [← hentries, List.mem_map]
  constructor
  · rintro ⟨d, hd, rfl⟩
    exact ⟨d.1, (hmem d).1 hd⟩
  · rintro ⟨t, ht⟩
    exact ⟨(t, e), (hmem (t, e)).2 ht, rfl⟩

/-! ### Contents -/

theorem get_eq_some (h : fs.paths.Nodup) {content : List UInt8} :
    fs.get path = some content ↔ (path, some content) ∈ fs.entries := by
  obtain ⟨es⟩ := fs
  rw [get, Option.join_eq_some_iff]
  change es.lookup path = some (some content) ↔ _
  induction es with
  | nil => simp
  | cons e es ih =>
    obtain ⟨p, held⟩ := e
    rw [paths, List.map_cons, List.nodup_cons] at h
    by_cases hp : path = p
    · subst hp
      have hout : (path, some content) ∉ es := by
        intro hmem
        exact h.1 (List.mem_map.2 ⟨_, hmem, rfl⟩)
      simp [hout, eq_comm]
    · rw [List.lookup_cons, beq_false_of_ne hp, ih h.2, List.mem_cons]
      simp [hp]

theorem forall_ends_iff {since : List Op} : (∀ op ∈ since, op.ends path = false) ↔
    (∀ content, .upload path content ∉ since) ∧ .delete path ∉ since := by
  constructor
  · intro h
    refine ⟨fun content hmem => ?_, fun hmem => ?_⟩
    · simpa [Op.ends] using h _ hmem
    · simpa [Op.ends] using h _ hmem
  · rintro ⟨hupload, hdelete⟩ op hop
    cases op with
    | upload p content =>
      rw [Op.ends, beq_eq_false_iff_ne]
      rintro rfl
      exact hupload content hop
    | delete p =>
      rw [Op.ends, beq_eq_false_iff_ne]
      rintro rfl
      exact hdelete hop
    | _ => rfl

theorem lasts_file_iff {content : List UInt8} :
    (∃ t, Lasts ops t (path, some content)) ↔ UploadedLast ops path content := by
  constructor
  · rintro ⟨t, before, op, since, rfl, -, hmade, hsince⟩
    cases op with
    | upload p c =>
      cases hmade
      exact ⟨before, since, rfl, forall_ends_iff.1 hsince⟩
    | createDir p =>
      rw [Op.made?] at hmade
      split_ifs at hmade
      cases hmade
    | _ => cases hmade
  · rintro ⟨before, since, rfl, hsince⟩
    exact ⟨before.length, before, _, since, rfl, rfl, rfl, forall_ends_iff.2 hsince⟩

theorem lasts_dir_iff : (∃ t, Lasts ops t (path, none)) ↔ CreatedLast ops path := by
  constructor
  · rintro ⟨t, before, op, since, rfl, -, hmade, hsince⟩
    cases op with
    | createDir p =>
      rw [Op.made?] at hmade
      split_ifs at hmade with hc
      cases hmade
      exact ⟨before, since, rfl, mt contains_iff.2 hc, forall_ends_iff.1 hsince⟩
    | _ => cases hmade
  · rintro ⟨before, since, rfl, hnew, hsince⟩
    refine ⟨before.length, before, _, since, rfl, rfl, ?_, forall_ends_iff.2 hsince⟩
    rw [Op.made?, if_neg (mt contains_iff.1 hnew)]

/-- Only the operations that are about a path count for its content. -/
theorem uploadedLast_filter {content : List UInt8} :
    UploadedLast (ops.filter (·.names path)) path content ↔ UploadedLast ops path content := by
  constructor
  · rintro ⟨before, since, hsplit, hupload, hdelete⟩
    obtain ⟨left, right, rfl, -, hright⟩ := List.filter_eq_append_iff.1 hsplit
    obtain ⟨skipped, rest, rfl, -, -, hrest⟩ := List.filter_eq_cons_iff.1 hright
    refine ⟨left ++ skipped, rest, by simp, fun content' hmem => ?_, fun hmem => ?_⟩
    · refine hupload content' ?_
      rw [← hrest]
      exact List.mem_filter.2 ⟨hmem, by simp [Op.names]⟩
    · refine hdelete ?_
      rw [← hrest]
      exact List.mem_filter.2 ⟨hmem, by simp [Op.names]⟩
  · rintro ⟨before, since, rfl, hupload, hdelete⟩
    refine ⟨before.filter (·.names path), since.filter (·.names path), ?_, ?_, ?_⟩
    · simp [Op.names]
    · intro content' hmem
      exact hupload content' (List.mem_filter.1 hmem).1
    · intro hmem
      exact hdelete (List.mem_filter.1 hmem).1

/-! ### Listings -/

theorem afterPrefix?_eq (start cs : List Char) : afterPrefix? start cs =
    if start.isPrefixOf cs then some (cs.drop start.length) else none := by
  induction start generalizing cs with
  | nil => simp [afterPrefix?]
  | cons p ps ih =>
    cases cs with
    | nil => simp [afterPrefix?]
    | cons c cs =>
      by_cases h : p = c
      · simp [afterPrefix?, List.isPrefixOf, h, ih]
      · simp [afterPrefix?, List.isPrefixOf, h]

theorem afterPrefix?_append (start next cs : List Char) :
    afterPrefix? (start ++ next) cs = (afterPrefix? start cs).bind (afterPrefix? next) := by
  induction start generalizing cs with
  | nil => rfl
  | cons p ps ih =>
    cases cs with
    | nil => rfl
    | cons c cs =>
      by_cases h : p = c
      · simp [afterPrefix?, h, ih]
      · simp [afterPrefix?, h]

theorem narrowed_eq (start : String) (ls : List Listed) : narrowed start ls = ls.filterMap fun l =>
    (afterPrefix? start.toList l.name.toList).map fun rest => ⟨String.ofList rest, l.isDir⟩ := by
  unfold narrowed
  induction ls with
  | nil => rfl
  | cons l ls ih =>
    by_cases h : start.toList.isPrefixOf l.name.toList = true
    · rw [List.filter_cons, if_pos h, List.map_cons, ih, List.filterMap_cons, afterPrefix?_eq, if_pos h]
      rfl
    · rw [List.filter_cons, if_neg h, ih, List.filterMap_cons, afterPrefix?_eq, if_neg h]
      rfl

/-- **A listing is narrowed by a longer prefix.** -/
theorem list_append (fs : RemoteFiles) (start next : String) :
    fs.list (start ++ next) = narrowed next (fs.list start) := by
  rw [narrowed_eq, list, list, List.filterMap_filterMap]
  congr 1
  funext ⟨path, held⟩
  dsimp only
  rw [String.toList_append, afterPrefix?_append]
  cases afterPrefix? start.toList path.toList <;> simp

/-- Every path begins with the empty text. -/
theorem list_empty (fs : RemoteFiles) :
    fs.list "" = fs.entries.map fun e => ⟨e.1, e.2.isNone⟩ := by
  rw [list, ← List.filterMap_eq_map]
  congr 1
  funext e
  simp [afterPrefix?]

/-- **Remote files are an ordered map.** After every run no path has two entries. The content of a path
is that of the last upload to it, unless it was deleted since, so that only the operations that are about
the path count. Deleting tells whether there was an entry, and takes it away and nothing else; to create a
directory where there is an entry, and to rename, changes nothing. The whole listing is that of the
entries which last, in the order in which the operations of the run have made them, and those that
`createDir` has made are directories; and a listing with a longer prefix is the listing with the shorter
one, narrowed. -/
theorem refines_ordered_map (ops : List Op) :
    let fs := empty.run ops
    fs.paths.Nodup ∧
    (∀ path content, fs.get path = some content ↔ UploadedLast ops path content) ∧
    (∀ path, fs.get path = (empty.run (ops.filter (·.names path))).get path) ∧
    (∀ path, ((fs.delete path).1 = true ↔ path ∈ fs.paths) ∧ path ∉ (fs.delete path).2.paths ∧
      (fs.delete path).2.entries = fs.entries.filter (·.1 != path)) ∧
    (∀ path, path ∈ fs.paths → fs.createDir path = fs) ∧
    (∀ src dst, fs.rename src dst = (false, fs)) ∧
    (∃ dated : List (Nat × Entry), (∀ d, d ∈ dated ↔ Lasts ops d.1 d.2) ∧
      dated.Pairwise (fun d d' => d.1 < d'.1) ∧
      fs.list "" = dated.map fun d => ⟨d.2.1, d.2.2.isNone⟩) ∧
    (∀ l ∈ fs.list "", l.isDir = true ↔ CreatedLast ops l.name) ∧
    ∀ start next, fs.list (start ++ next) = narrowed next (fs.list start) := by
  intro fs
  have hnodup : fs.paths.Nodup := run_nodup ops
  have hget : ∀ path content, fs.get path = some content ↔ UploadedLast ops path content := by
    intro path content
    rw [get_eq_some hnodup, mem_entries_iff, lasts_file_iff]
  refine ⟨hnodup, hget, ?_, ?_, ?_, fun _ _ => rfl, ?_, ?_, list_append fs⟩
  · intro path
    apply Option.ext
    intro content
    rw [hget, get_eq_some (run_nodup _), mem_entries_iff, lasts_file_iff, uploadedLast_filter]
  · intro path
    have hentries : (fs.delete path).2.entries = fs.entries.filter (·.1 != path) :=
      eraseP_eq_filter hnodup path
    refine ⟨contains_iff, ?_, hentries⟩
    rw [paths, hentries]
    simp
  · intro path hpath
    rw [createDir, if_pos (contains_iff.2 hpath)]
  · obtain ⟨dated, hentries, hsorted, hmem⟩ := exists_dated ops
    refine ⟨dated, hmem, hsorted, ?_⟩
    rw [list_empty, ← hentries, List.map_map]
    rfl
  · intro l hl
    rw [list_empty] at hl
    obtain ⟨⟨path, held⟩, he, rfl⟩ := List.mem_map.1 hl
    rw [Option.isNone_iff_eq_none, ← lasts_dir_iff, ← mem_entries_iff]
    constructor
    · rintro rfl
      exact he
    · intro hdir
      exact congrArg Prod.snd (List.inj_on_of_nodup_map hnodup he hdir rfl)

end RemoteFiles

end PanelClient

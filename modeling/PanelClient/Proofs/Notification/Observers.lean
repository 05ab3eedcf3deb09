import PanelClient.Proofs.Notification.Course

/-!
# What receivers see

A receiver can ask whether the message on screen has changed since it last looked, and look. The center
counts changes and compares what is shown by value; since every showing has a number of its own, two
showings are never taken for one, and a receiver is told of a change exactly if there was one.

* `Center.Changes` : an act puts another message on screen, or takes the one that is there away;
  `Center.Informed.changes_iff` : which acts do;
* `Center.Informed` : the receivers have been told what is on screen; true after every schedule;
* `Center.version_after_eq_iff` : the version stands still exactly as long as nothing changes;
* `Center.looks` : what a receiver is told each time that it looks;
* `Center.only`, `Center.alone` : a center with one receiver, and a schedule without what the others do.
  `Center.after_alone` : nobody but they can tell the difference;
* `Center.receivers_see_history` : all of it for every schedule from the start.
-/

namespace PanelClient

namespace Queue

variable {q : Queue}

/-- What is on screen can be told by its number. -/
theorem Consistent.step_current_eq_iff (hq : q.Consistent) (op : Op) :
    (q.step op).1.current = q.current ↔
      (q.step op).1.current.map (·.id) = q.current.map (·.id) := by
  constructor
  · intro h
    rw [h]
  · intro h
    rcases hq.effect op with ⟨m, rest, -, hr, -⟩ | ⟨-, -, hr, -⟩ | ⟨-, -, hr, -⟩ <;> rw [hr] at h ⊢
    · -- the number is new
      obtain ⟨s, hs, hid⟩ := Option.map_eq_some_iff.1 h.symm
      have hnew : s.id = q.lastId + 1 := hid
      have hold := hq.id_eq s hs
      omega
    · exact (Option.map_eq_none_iff.1 h.symm).symm

theorem Past.id_lt (hq : q.Consistent) {id : Nat} (h : q.Past id) {s : Shown}
    (hs : q.current = some s) : id < s.id := by
  have hle := h.1
  have hne := h.2 s hs
  have hid := hq.id_eq s hs
  omega

end Queue

namespace Center

/-- The number of the message on screen, if there is one. -/
def displayed (c : Center) : Option Nat := c.queue.current.map (·.id)

/-- The act changes what is on screen. -/
def Changes (c : Center) (a : Act) : Prop := (c.act a).displayed ≠ c.displayed

/-- What it takes for an act to change what is on screen. -/
def Act.Alters (c : Center) : Act → Prop
  | .push _ => c.queue.current = none
  | .urgent _ => True
  | .consume => c.queue.current ≠ none
  | .fire => ∃ t s, c.armed = some t ∧ c.queue.current = some s ∧ s.id = t.id
  | _ => False

/-- With this act receiver `r` has seen what is on screen: it is added, or looks. -/
def Act.Looks (c : Center) (r : Nat) : Act → Prop
  | .subscribe => c.receivers.length = r
  | .observe r' => r' = r ∧ r < c.receivers.length
  | _ => False

/-- The message that a receiver has seen. -/
def Observation.shown? : Observation → Option Shown
  | .seen _ s => s
  | _ => .none

/-- The receiver was told that the message has changed. -/
def Observation.isChange : Observation → Bool
  | .seen changed _ => changed
  | _ => false

/-- What receiver `r` is told each time that it looks. -/
def looks (r : Nat) (c : Center) : List Act → List Observation
  | [] => []
  | a :: acts =>
    (if a = .observe r then [c.observation (.observe r)] else []) ++ (c.act a).looks r acts

/-- The receivers have been told what is on screen, and none has seen more. -/
structure Informed (c : Center) : Prop where
  consistent : c.queue.Consistent
  published_eq : c.published = c.queue.current
  le_version : ∀ v ∈ c.receivers, v ≤ c.version

variable {c : Center} {r : Nat}

/-! ### One act -/

/-- An act is an operation of the queue, of which the receivers are told, or they are not concerned. -/
theorem act_told (c : Center) (a : Act) :
    (∃ op, (c.act a).queue = (c.queue.step op).1 ∧
      (c.act a).published = (c.queue.step op).1.current ∧ (c.act a).version =
        if c.published = (c.queue.step op).1.current then c.version else c.version + 1) ∨
    ((c.act a).queue = c.queue ∧ (c.act a).published = c.published ∧
      (c.act a).version = c.version) := by
  cases a with
  | push m => exact .inl ⟨.push m, apply_queue c _, apply_told c _⟩
  | urgent m => exact .inl ⟨.urgent m, apply_queue c _, apply_told c _⟩
  | consume => exact .inl ⟨.consume, apply_queue c _, apply_told c _⟩
  | fire =>
    rw [act]
    cases ht : c.armed with
    | none => exact .inr ⟨rfl, rfl, rfl⟩
    | some t => exact .inl ⟨.elapsed t.id, apply_queue _ _, apply_told { c with armed := none } _⟩
  | receive =>
    rw [act, receive]
    cases c.mailbox <;> exact .inr ⟨rfl, rfl, rfl⟩
  | _ => exact .inr ⟨rfl, rfl, rfl⟩

/-- What receivers have seen: a new one has seen the present state, and so has one that looks. -/
theorem act_receivers (c : Center) (a : Act) : (c.act a).receivers =
    match a with
    | .subscribe => c.receivers ++ [c.version]
    | .observe r => c.receivers.set r c.version
    | _ => c.receivers := by
  cases a with
  | push m => exact apply_receivers c _
  | urgent m => exact apply_receivers c _
  | consume => exact apply_receivers c _
  | fire =>
    rw [act]
    cases c.armed with
    | none => rfl
    | some t => exact apply_receivers { c with armed := none } _
  | receive =>
    rw [act, receive]
    cases c.mailbox <;> rfl
  | _ => rfl

/-- Who sees what is on screen has then seen the present version. -/
theorem seen_act_cases {a : Act} {v : Nat} (h : (c.act a).receivers[r]? = some v) :
    c.receivers[r]? = some v ∨ v = c.version := by
  rw [act_receivers] at h
  cases a with
  | subscribe =>
    dsimp only at h
    rw [List.getElem?_append] at h
    split_ifs at h with hr
    · exact .inl h
    · exact .inr (List.mem_singleton.1 (List.mem_of_getElem? h))
  | observe r' =>
    dsimp only at h
    rw [List.getElem?_set] at h
    split_ifs at h with heq hr
    · exact .inr (Option.some.inj h).symm
    · exact .inl h
  | _ => exact .inl h

namespace Informed

theorem initial_informed : Informed initial := ⟨Queue.empty_consistent, rfl, by simp [initial]⟩

/-- The version goes up by one if the act changes what is on screen, and stays if not. -/
theorem version_act (h : Informed c) (a : Act) :
    c.Changes a ∧ (c.act a).version = c.version + 1 ∨
      ¬ c.Changes a ∧ (c.act a).version = c.version := by
  rcases act_told c a with ⟨op, hqueue, -, hversion⟩ | ⟨hqueue, -, hversion⟩
  · have hiff := h.consistent.step_current_eq_iff op
    rw [Changes, displayed, displayed, hqueue, hversion, h.published_eq]
    by_cases hsame : c.queue.current = (c.queue.step op).1.current
    · rw [if_pos hsame]
      exact .inr ⟨not_not_intro (hiff.1 hsame.symm), rfl⟩
    · rw [if_neg hsame]
      exact .inl ⟨fun hid => hsame (hiff.2 hid).symm, rfl⟩
  · right
    rw [Changes, displayed, displayed, hqueue]
    exact ⟨not_not_intro rfl, hversion⟩

theorem version_le (h : Informed c) (a : Act) : c.version ≤ (c.act a).version := by
  rcases h.version_act a with ⟨-, hversion⟩ | ⟨-, hversion⟩ <;> omega

theorem act (h : Informed c) (a : Act) : Informed (c.act a) := by
  have hle := h.version_le a
  refine ⟨?_, ?_, ?_⟩
  · rcases act_told c a with ⟨op, hqueue, -⟩ | ⟨hqueue, -⟩
    · exact hqueue ▸ h.consistent.step op
    · exact hqueue ▸ h.consistent
  · rcases act_told c a with ⟨op, hqueue, hpublished, -⟩ | ⟨hqueue, hpublished, -⟩
    · rw [hpublished, hqueue]
    · rw [hpublished, hqueue, h.published_eq]
  · intro v hv
    obtain ⟨r, hr⟩ := List.mem_iff_getElem?.1 hv
    rcases seen_act_cases hr with hold | rfl
    · exact Nat.le_trans (h.le_version v (List.mem_of_getElem? hold)) hle
    · exact hle

theorem after (h : Informed c) (acts : List Act) : Informed (c.after acts) := by
  induction acts generalizing c with
  | nil => exact h
  | cons a acts ih => exact ih (h.act a)

end Informed

/-! ### Which acts change what is on screen -/

/-- A message that comes on screen has a number of its own. -/
theorem changes_of_new (hq : c.queue.Consistent) {a : Act}
    (h : (c.act a).displayed = some (c.queue.lastId + 1)) : c.Changes a := by
  intro heq
  obtain ⟨s, hs, hid⟩ := Option.map_eq_some_iff.1 (heq.symm.trans h)
  have hold := hq.id_eq s hs
  omega

/-- A message that is past is not on screen any more. -/
theorem changes_of_past {a : Act} {s : Shown} (hs : c.queue.current = some s)
    (h : (c.act a).queue.Past s.id) : c.Changes a := by
  intro heq
  rw [displayed, displayed, hs] at heq
  obtain ⟨s', hs', hid⟩ := Option.map_eq_some_iff.1 heq
  exact h.2 s' hs' hid

theorem not_changes_of_eq {a : Act} (h : (c.act a).queue.current = c.queue.current) :
    ¬ c.Changes a := by
  rw [Changes, displayed, displayed, h]
  exact not_not_intro rfl

/-- **Which acts change what is on screen.** Messages that are left to wait, dismissals of nothing and
timers of messages that are past do not, and neither does what receivers do. -/
theorem changes_iff (hq : c.queue.Consistent) (a : Act) : c.Changes a ↔ a.Alters c := by
  cases a with
  | push m =>
    by_cases hnone : c.queue.current = none
    · refine iff_of_true (changes_of_new hq ?_) hnone
      simp [displayed, act, push, Queue.push, Queue.display, hq.idle_iff.2 hnone]
    · obtain ⟨s, hs⟩ := Option.ne_none_iff_exists'.1 hnone
      refine iff_of_false (not_changes_of_eq ?_) hnone
      simp [act, push, hq.push_of_current hs]
  | urgent m =>
    refine iff_of_true (changes_of_new hq ?_) trivial
    simp [displayed, act, urgent, Queue.urgent, Queue.display]
  | consume =>
    by_cases hnone : c.queue.current = none
    · refine iff_of_false (not_changes_of_eq ?_) (not_not_intro hnone)
      simp [act, consume, Queue.consume, hq.backlog_eq_nil (hq.idle_iff.2 hnone), hnone]
    · obtain ⟨s, hs⟩ := Option.ne_none_iff_exists'.1 hnone
      refine iff_of_true (changes_of_past hs ?_) hnone
      rw [act, consume, apply_queue]
      exact hq.past_consume hs
  | fire =>
    by_cases hown : ∃ t s, c.armed = some t ∧ c.queue.current = some s ∧ s.id = t.id
    · obtain ⟨t, s, ht, hs, hid⟩ := hown
      refine iff_of_true (changes_of_past hs ?_) ⟨t, s, ht, hs, hid⟩
      rw [act, ht]
      exact fire_past hq hs hid.symm
    · refine iff_of_false (not_changes_of_eq ?_) hown
      rw [act]
      cases ht : c.armed with
      | none => rfl
      | some t => exact fire_current_of_ne hq fun s hs hid => hown ⟨t, s, ht, hs, hid⟩
  | receive => exact iff_of_false (not_changes_of_eq (by rw [act, receive_queue])) id
  | _ => exact iff_of_false (not_changes_of_eq rfl) id

/-! ### Schedules -/

theorem Informed.version_le_after (h : Informed c) (acts : List Act) :
    c.version ≤ (c.after acts).version := by
  induction acts generalizing c with
  | nil => exact Nat.le_refl _
  | cons a acts ih => exact Nat.le_trans (h.version_le a) (ih (h.act a))

/-- **The version stands still exactly as long as nothing changes.** -/
theorem version_after_eq_iff (h : Informed c) (acts : List Act) :
    (c.after acts).version = c.version ↔
      ∀ done a todo, acts = done ++ a :: todo → ¬ (c.after done).Changes a := by
  induction acts generalizing c with
  | nil => simp
  | cons a acts ih =>
    have hle := (h.act a).version_le_after acts
    rw [after_cons]
    rcases h.version_act a with ⟨hchanges, hversion⟩ | ⟨hchanges, hversion⟩
    · refine iff_of_false (by omega) fun hall => ?_
      exact hall [] a acts rfl hchanges
    · rw [← hversion, ih (h.act a)]
      constructor
      · intro hrest done a' todo hsplit
        rcases List.cons_eq_append_iff.1 hsplit with ⟨rfl, hcons⟩ | ⟨done', rfl, hcons⟩
        · obtain ⟨rfl, -⟩ := List.cons.inj hcons
          exact hchanges
        · exact hrest done' a' todo hcons
      · intro hall done a' todo hsplit
        exact hall (a :: done) a' todo (by rw [hsplit, List.cons_append])

/-- A message that was on screen at another version is past. -/
theorem past_of_version_ne (h : Informed c) {s : Shown} (hs : c.queue.current = some s)
    {acts : List Act} (hne : (c.after acts).version ≠ c.version) :
    (c.after acts).queue.Past s.id := by
  induction acts generalizing c with
  | nil => exact absurd rfl hne
  | cons a acts ih =>
    rcases after_stays_or_past h.consistent hs [a] with hstay | hpast
    · -- nothing has changed yet
      have hsame : ¬ c.Changes a := not_changes_of_eq (hstay.trans hs.symm)
      rcases h.version_act a with ⟨hchanges, -⟩ | ⟨-, hversion⟩
      · exact absurd hchanges hsame
      · exact ih (h.act a) hstay (hversion ▸ hne)
    · exact after_past (h.act a).consistent hpast acts

/-- Numbers of messages on screen never go down. -/
theorem id_le_after (h : Informed c) {s s' : Shown} (acts : List Act)
    (hs : c.queue.current = some s) (hs' : (c.after acts).queue.current = some s') :
    s.id ≤ s'.id := by
  rcases after_stays_or_past h.consistent hs acts with hstay | hpast
  · obtain rfl : s = s' := Option.some.inj (hstay.symm.trans hs')
    exact Nat.le_refl _
  · exact Nat.le_of_lt (hpast.id_lt (h.after acts).consistent hs')

/-! ### One receiver -/

/-- A receiver is told of a change if it has seen another version than the present one. -/
theorem hasChanged_iff : c.hasChanged r = true ↔ ∃ v, c.receivers[r]? = some v ∧ v ≠ c.version := by
  rw [hasChanged, List.getD_eq_getElem?_getD, bne_iff_ne]
  cases c.receivers[r]? <;> simp

/-- Who has seen what is on screen has seen the present version. -/
theorem seen_of_looks {look : Act} (h : look.Looks c r) :
    (c.act look).receivers[r]? = some (c.act look).version := by
  cases look with
  | subscribe =>
    obtain rfl : c.receivers.length = r := h
    simp [act, subscribe]
  | observe r' =>
    obtain ⟨rfl, hr⟩ : r' = r ∧ r < c.receivers.length := h
    simp [act, observe, hr]
  | _ => exact h.elim

/-- What a receiver has seen does not change until it looks again. -/
theorem seen_act {v : Nat} (h : c.receivers[r]? = some v) {a : Act} (ha : a ≠ .observe r) :
    (c.act a).receivers[r]? = some v := by
  rw [act_receivers]
  cases a with
  | subscribe =>
    obtain ⟨hr, -⟩ := List.getElem?_eq_some_iff.1 h
    rwa [List.getElem?_append_left hr]
  | observe r' =>
    have hne : r' ≠ r := fun heq => ha (heq ▸ rfl)
    rwa [List.getElem?_set_ne hne]
  | _ => exact h

theorem seen_after {v : Nat} (h : c.receivers[r]? = some v) {acts : List Act}
    (hacts : .observe r ∉ acts) : (c.after acts).receivers[r]? = some v := by
  induction acts generalizing c with
  | nil => exact h
  | cons a acts ih =>
    rw [List.mem_cons, not_or] at hacts
    exact ih (seen_act h (Ne.symm hacts.1)) hacts.2

/-- **A receiver is told of a change exactly if there was one** since it last looked. -/
theorem hasChanged_after_iff (h : Informed c) {look : Act} (hlook : look.Looks c r)
    {since : List Act} (hsince : .observe r ∉ since) :
    ((c.act look).after since).hasChanged r = true ↔
      ∃ done a todo, since = done ++ a :: todo ∧ ((c.act look).after done).Changes a := by
  have hseen := seen_after (seen_of_looks hlook) hsince
  have hiff := not_congr (version_after_eq_iff (h.act look) since)
  push Not at hiff
  rw [hasChanged_iff, hseen, ← hiff]
  constructor
  · rintro ⟨v, hv, hne⟩
    cases hv
    exact hne.symm
  · intro hne
    exact ⟨_, rfl, hne.symm⟩

/-! ### What a receiver sees -/

theorem looks_append (acts acts' : List Act) :
    c.looks r (acts ++ acts') = c.looks r acts ++ (c.after acts).looks r acts' := by
  induction acts generalizing c with
  | nil => rfl
  | cons a acts ih => rw [List.cons_append, looks, looks, ih, after_cons, List.append_assoc]

/-- What a receiver has been told is what it was told at some moment of the schedule. -/
theorem looks_eq_append {acts : List Act} {before later : List Observation} {o : Observation}
    (h : c.looks r acts = before ++ o :: later) : ∃ done todo, acts = done ++ .observe r :: todo ∧
      c.looks r done = before ∧ o = (c.after done).observation (.observe r) ∧
        ((c.after done).act (.observe r)).looks r todo = later := by
  induction acts generalizing c before with
  | nil => exact absurd h (by simp [looks])
  | cons a acts ih =>
    rw [looks] at h
    by_cases ha : a = .observe r
    · subst ha
      rw [if_pos rfl, List.singleton_append] at h
      rcases List.cons_eq_append_iff.1 h with ⟨rfl, hcons⟩ | ⟨before', rfl, hrest⟩
      · obtain ⟨rfl, rfl⟩ := List.cons.inj hcons
        exact ⟨[], acts, rfl, rfl, rfl, rfl⟩
      · obtain ⟨done, todo, rfl, rfl, ho, hlater⟩ := ih hrest
        exact ⟨.observe r :: done, todo, rfl, by simp [looks], ho, hlater⟩
    · rw [if_neg ha, List.nil_append] at h
      obtain ⟨done, todo, rfl, rfl, ho, hlater⟩ := ih h
      exact ⟨a :: done, todo, rfl, by simp [looks, ha], ho, hlater⟩

theorem mem_looks {acts : List Act} {o : Observation} (h : o ∈ c.looks r acts) :
    ∃ done todo, acts = done ++ .observe r :: todo ∧ o = (c.after done).observation (.observe r) := by
  obtain ⟨before, later, hsplit⟩ := List.append_of_mem h
  obtain ⟨done, todo, hacts, -, ho, -⟩ := looks_eq_append hsplit
  exact ⟨done, todo, hacts, ho⟩

theorem Informed.shown?_observation (h : Informed c) :
    (c.observation (.observe r)).shown? = c.queue.current := h.published_eq

/-- The numbers that a receiver sees never go down. -/
theorem Informed.looks_pairwise (h : Informed c) (acts : List Act) :
    (c.looks r acts).Pairwise fun o o' => ∀ s ∈ o.shown?, ∀ s' ∈ o'.shown?, s.id ≤ s'.id := by
  induction acts generalizing c with
  | nil => exact List.Pairwise.nil
  | cons a acts ih =>
    rw [looks]
    by_cases ha : a = .observe r
    · subst ha
      rw [if_pos rfl, List.singleton_append, List.pairwise_cons]
      refine ⟨?_, ih (h.act _)⟩
      intro o ho s hs s' hs'
      obtain ⟨done, todo, -, rfl⟩ := mem_looks ho
      rw [h.shown?_observation] at hs
      rw [((h.act _).after done).shown?_observation] at hs'
      exact id_le_after h (.observe r :: done) hs hs'
    · rw [if_neg ha, List.nil_append]
      exact ih (h.act a)

/-- Who has seen a version or a later one goes on so. -/
theorem le_seen_after {n : Nat} (h : Informed c) (hn : n ≤ c.version)
    (hr : ∀ v, c.receivers[r]? = some v → n ≤ v) (acts : List Act) :
    ∀ v, (c.after acts).receivers[r]? = some v → n ≤ v := by
  induction acts generalizing c with
  | nil => exact hr
  | cons a acts ih =>
    refine ih (h.act a) (Nat.le_trans hn (h.version_le a)) ?_
    intro v hv
    rcases seen_act_cases hv with hold | rfl
    · exact hr v hold
    · exact hn

/-- A receiver that is told of a change has looked at another version before. -/
theorem version_ne_of_hasChanged (h : Informed c) {mid : List Act}
    (hchanged : (c.after (.observe r :: mid)).hasChanged r = true) :
    (c.after (.observe r :: mid)).version ≠ c.version := by
  intro heq
  obtain ⟨v, hv, hne⟩ := hasChanged_iff.1 hchanged
  have hle : v ≤ (c.after (.observe r :: mid)).version :=
    (h.after _).le_version v (List.mem_of_getElem? hv)
  have hlooked : ∀ v, (c.observe r).receivers[r]? = some v → c.version ≤ v := by
    intro v hv
    rw [observe, List.getElem?_set_self'] at hv
    obtain ⟨-, -, rfl⟩ := Option.map_eq_some_iff.1 hv
    exact Nat.le_refl _
  have hge : c.version ≤ v :=
    le_seen_after (h.act (.observe r)) (Nat.le_refl c.version) hlooked mid v hv
  omega

/-- **What was seen before a change is never seen again.** -/
theorem Informed.lt_of_looks (h : Informed c) {acts : List Act} {before later : List Observation}
    {o : Observation} (hlooks : c.looks r acts = before ++ o :: later) (ho : o.isChange = true) :
    ∀ o₁ ∈ before, ∀ o₂ ∈ o :: later, ∀ s ∈ o₁.shown?, ∀ s' ∈ o₂.shown?, s.id < s'.id := by
  obtain ⟨done, todo, rfl, rfl, rfl, rfl⟩ := looks_eq_append hlooks
  intro o₁ ho₁ o₂ ho₂ s hs s' hs'
  obtain ⟨first, mid, rfl, rfl⟩ := mem_looks ho₁
  have hfirst : Informed (c.after first) := h.after first
  have hdone : Informed (c.after (first ++ .observe r :: mid)) := h.after _
  rw [hfirst.shown?_observation] at hs
  have hpast : (c.after (first ++ .observe r :: mid)).queue.Past s.id := by
    rw [after_append] at ho ⊢
    exact past_of_version_ne hfirst hs (version_ne_of_hasChanged hfirst ho)
  rcases List.mem_cons.1 ho₂ with rfl | hlater
  · rw [hdone.shown?_observation] at hs'
    exact hpast.id_lt hdone.consistent hs'
  · obtain ⟨more, -, -, rfl⟩ := mem_looks hlater
    have hact := hdone.act (.observe r)
    rw [(hact.after more).shown?_observation] at hs'
    exact (after_past hact.consistent hpast more).id_lt (hact.after more).consistent hs'

/-! ### The others -/

/-- The center with receiver `r` alone, which is then receiver 0. -/
def only (r : Nat) (c : Center) : Center := { c with receivers := c.receivers[r]?.toList }

/-- What is left of an act if all receivers but `r` are left out. -/
def Act.alone (c : Center) (r : Nat) : Act → List Act
  | .subscribe => if c.receivers.length = r then [.subscribe] else []
  | .observe r' => if r' = r then [.observe 0] else []
  | a => [a]

/-- The schedule without what receivers other than `r` do. -/
def alone (r : Nat) (c : Center) : List Act → List Act
  | [] => []
  | a :: acts => a.alone c r ++ (c.act a).alone r acts

theorem only_apply (c : Center) (op : Queue → Queue × Option Timer) :
    (c.only r).apply op = (c.apply op).only r := by
  obtain ⟨queue, clock, mailbox, armed, running, published, version, receivers⟩ := c
  simp only [only, apply, send_eq, publish]
  cases (op queue).2 with
  | none => split_ifs <;> rfl
  | some t => split_ifs <;> rfl

theorem only_act (c : Center) (a : Act) : (c.only r).after (a.alone c r) = (c.act a).only r := by
  cases a with
  | push m => exact only_apply c (·.push m)
  | urgent m => exact only_apply c (·.urgent m)
  | consume => exact only_apply c Queue.consume
  | subscribe =>
    by_cases hr : c.receivers.length = r
    · subst hr
      simp [Act.alone, act, subscribe, only]
    · have hsame : (c.receivers ++ [c.version])[r]? = c.receivers[r]? := by
        rcases Nat.lt_or_gt_of_ne hr with hlt | hgt
        · have hle : (c.receivers ++ [c.version]).length ≤ r := by
            rw [List.length_append]
            exact hlt
          rw [List.getElem?_eq_none hle, List.getElem?_eq_none (Nat.le_of_lt hlt)]
        · exact List.getElem?_append_left hgt
      simp [Act.alone, act, subscribe, only, hr, hsame]
  | observe r' =>
    by_cases hr : r' = r
    · subst hr
      simp only [Act.alone, if_pos, after_cons, after_nil, act, observe, only,
        List.getElem?_set_self']
      cases c.receivers[r']? <;> rfl
    · simp [Act.alone, act, observe, only, hr, List.getElem?_set_ne hr]
  | fire =>
    obtain ⟨queue, clock, mailbox, armed, running, published, version, receivers⟩ := c
    cases armed with
    | none => rfl
    | some t =>
      exact only_apply ⟨queue, clock, mailbox, none, running, published, version, receivers⟩
        (·.elapsed t.id)
  | receive =>
    obtain ⟨queue, clock, mailbox, armed, running, published, version, receivers⟩ := c
    cases mailbox <;> rfl
  | shutdown => rfl
  | wait n => rfl

/-- **The others make no difference.** -/
theorem after_alone (acts : List Act) : (c.only r).after (c.alone r acts) = (c.after acts).only r := by
  induction acts generalizing c with
  | nil => rfl
  | cons a acts ih => rw [alone, after_append, only_act, ih, after_cons]

theorem observation_only : (c.only r).observation (.observe 0) = c.observation (.observe r) := by
  simp only [observation, hasChanged, only, List.getD_eq_getElem?_getD]
  cases c.receivers[r]? <;> rfl

theorem looks_act_alone (a : Act) : (c.only r).looks 0 (a.alone c r) =
    if a = .observe r then [c.observation (.observe r)] else [] := by
  cases a with
  | subscribe =>
    rw [Act.alone]
    by_cases hr : c.receivers.length = r <;> simp [looks, hr]
  | observe r' =>
    rw [Act.alone]
    by_cases hr : r' = r
    · simp [looks, hr, observation_only]
    · simp [looks, hr]
  | _ => simp [Act.alone, looks]

theorem looks_alone (acts : List Act) : (c.only r).looks 0 (c.alone r acts) = c.looks r acts := by
  induction acts generalizing c with
  | nil => rfl
  | cons a acts ih => rw [alone, looks_append, looks_act_alone, only_act, ih, looks]

/-- **Receivers see the history of the screen.** After every schedule, in whatever order its acts come, a
receiver that looks is shown what is on screen. It is told of a change exactly if, since it was added or
last looked, at least one act has put another message on screen or taken one away; messages that are left
to wait, dismissals of nothing and timers of messages that are past do not. The numbers that it sees never
go down, and what it has seen before it is told of a change it never sees again. If what other receivers
do is left out of the schedule, everything else remains as it is. The course of a run of operations is
such a schedule. -/
theorem receivers_see_history (acts : List Act) (r : Nat) :
    let c := initial.after acts
    c.observation (.observe r) = .seen (c.hasChanged r) c.queue.current ∧
    (∀ before look since, acts = before ++ look :: since → look.Looks (initial.after before) r →
      .observe r ∉ since → (c.hasChanged r = true ↔ ∃ done a todo, since = done ++ a :: todo ∧
        (initial.after (before ++ look :: done)).Changes a)) ∧
    (∀ a, c.Changes a ↔ a.Alters c) ∧
    (initial.looks r acts).Pairwise
      (fun o o' => ∀ s ∈ o.shown?, ∀ s' ∈ o'.shown?, s.id ≤ s'.id) ∧
    (∀ before o later, initial.looks r acts = before ++ o :: later → o.isChange = true →
      ∀ o₁ ∈ before, ∀ o₂ ∈ o :: later, ∀ s ∈ o₁.shown?, ∀ s' ∈ o₂.shown?, s.id < s'.id) ∧
    initial.after (initial.alone r acts) = c.only r ∧
    initial.looks 0 (initial.alone r acts) = initial.looks r acts ∧
    ∀ ops, acts = initial.course ops → c = initial.run ops := by
  intro c
  have hstart : Informed initial := .initial_informed
  have hc : Informed c := hstart.after acts
  refine ⟨?_, ?_, changes_iff hc.consistent, hstart.looks_pairwise acts, ?_, ?_, ?_, ?_⟩
  · rw [observation, hc.published_eq]
  · rintro before look since rfl hlook hsince
    have hiff := hasChanged_after_iff (hstart.after before) hlook hsince
    simp only [c, after_append, after_cons] at hiff ⊢
    exact hiff
  · intro before o later hlooks ho
    exact hstart.lt_of_looks hlooks ho
  · exact after_alone (c := initial) acts
  · exact looks_alone (c := initial) acts
  · rintro ops rfl
    exact after_course initial ops

end Center

end PanelClient

import PanelClient.Text.Split

/-!
# The pieces of two texts

* `split_append_cons` : a separator parts the pieces of what stands before it from those of what
  stands after it;
* `split_of_forall` : a text without separators is one piece;
* `mem_of_mem_split` : pieces consist of characters of the text.
-/

namespace PanelClient

variable {isSeparator : Char → Bool}

theorem split_cons_of_pos {c : Char} (hc : isSeparator c = true) (r : List Char) :
    split isSeparator (c :: r) = [] :: split isSeparator r := by
  simp [split, hc]

theorem split_cons_of_neg {c : Char} {r p : List Char} {ps : List (List Char)}
    (hc : isSeparator c = false) (hr : split isSeparator r = p :: ps) :
    split isSeparator (c :: r) = (c :: p) :: ps := by
  simp [split, hc, hr]

theorem exists_split (isSeparator : Char → Bool) (cs : List Char) :
    ∃ p ps, split isSeparator cs = p :: ps := by
  cases cs with
  | nil => exact ⟨_, _, rfl⟩
  | cons c r =>
    rw [split]
    split <;> exact ⟨_, _, rfl⟩

theorem split_of_forall {cs : List Char} (h : ∀ c ∈ cs, isSeparator c = false) :
    split isSeparator cs = [cs] := by
  induction cs with
  | nil => rfl
  | cons c cs ih =>
    exact split_cons_of_neg (h c List.mem_cons_self) (ih fun c hc => h c (List.mem_cons_of_mem _ hc))

theorem split_append_cons {a : Char} (ha : isSeparator a = true) (cs r : List Char) :
    split isSeparator (cs ++ a :: r) = split isSeparator cs ++ split isSeparator r := by
  induction cs with
  | nil => exact split_cons_of_pos ha r
  | cons c cs ih =>
    cases hc : isSeparator c with
    | true =>
      rw [List.cons_append, split_cons_of_pos hc, split_cons_of_pos hc, ih]
      rfl
    | false =>
      obtain ⟨p, ps, hp⟩ := exists_split isSeparator cs
      rw [hp] at ih
      rw [List.cons_append, split_cons_of_neg hc ih, split_cons_of_neg hc hp]
      rfl

theorem mem_of_mem_split {cs p : List Char} (hp : p ∈ split isSeparator cs) {c : Char} (hc : c ∈ p) :
    c ∈ cs := by
  induction cs generalizing p with
  | nil =>
    cases List.mem_singleton.1 hp
    cases hc
  | cons d r ih =>
    cases hd : isSeparator d with
    | true =>
      rw [split_cons_of_pos hd] at hp
      rcases List.mem_cons.1 hp with rfl | hp
      · cases hc
      · exact List.mem_cons_of_mem d (ih hp hc)
    | false =>
      obtain ⟨q, ps, hq⟩ := exists_split isSeparator r
      rw [split_cons_of_neg hd hq] at hp
      rw [hq] at ih
      rcases List.mem_cons.1 hp with rfl | hp
      · rcases List.mem_cons.1 hc with rfl | hc
        · exact List.mem_cons_self
        · exact List.mem_cons_of_mem d (ih List.mem_cons_self hc)
      · exact List.mem_cons_of_mem d (ih (List.mem_cons_of_mem q hp) hc)

end PanelClient

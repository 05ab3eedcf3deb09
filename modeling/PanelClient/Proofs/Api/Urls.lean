import Mathlib.Data.List.DropRight
import PanelClient.Proofs.Api.Call
import PanelClient.Proofs.Text.Percent

/-!
# The URLs that a client makes

An address may be given with any number of slashes at its end. The client drops them and writes its
endpoints behind what is left, so that they make no difference to what it sends. An instance is named
behind a place of its own, and the name is encoded, so that it can be read back.

* `Unslashed`, `addSlashes` : texts without and with slashes at their end;
* `IsCore` : the longest prefix of a text that does not end in a slash. `trimSlashes` leaves it
  (`trimSlashes_isCore`), however many slashes are added (`trimSlashes_addSlashes`);
* `Percent.written_encode` : a text is encoded with plain characters and escapes;
* `Client.urls_of_address` : what the URLs of a client depend on.
-/

namespace PanelClient

/-- The text does not end in a slash. -/
def Unslashed (s : String) : Prop := s.toList.getLast? ≠ some '/'

/-- The text with more slashes at its end. -/
def addSlashes (s : String) (k : Nat) : String := s ++ String.ofList (List.replicate k '/')

/-- The longest prefix of a text that does not end in a slash. -/
structure IsCore (core s : String) : Prop where
  isPrefix : core.toList <+: s.toList
  unslashed : Unslashed core
  longest : ∀ p : String, p.toList <+: s.toList → Unslashed p → p.length ≤ core.length

/-! ### Slashes at the end -/

theorem trimSlashes_toList (s : String) :
    (trimSlashes s).toList = s.toList.rdropWhile (· == '/') := String.toList_ofList

theorem rdropWhile_append_replicate (cs : List Char) (k : Nat) :
    (cs ++ List.replicate k '/').rdropWhile (· == '/') = cs.rdropWhile (· == '/') := by
  induction k with
  | zero => rw [List.replicate_zero, List.append_nil]
  | succ k ih =>
    rw [List.replicate_succ', ← List.append_assoc, List.rdropWhile_concat,
      if_pos (beq_self_eq_true '/'), ih]

/-- **Slashes at the end make no difference.** -/
theorem trimSlashes_addSlashes (s : String) (k : Nat) :
    trimSlashes (addSlashes s k) = trimSlashes s := by
  rw [← String.toList_inj, trimSlashes_toList, trimSlashes_toList, addSlashes, String.toList_append,
    String.toList_ofList, rdropWhile_append_replicate]

theorem trimSlashes_unslashed (s : String) : Unslashed (trimSlashes s) := by
  rw [Unslashed, trimSlashes_toList]
  intro hlast
  have hne : s.toList.rdropWhile (· == '/') ≠ [] := fun hnil => by
    rw [hnil] at hlast
    cases hlast
  rw [List.getLast?_eq_some_getLast hne] at hlast
  exact List.rdropWhile_last_not _ _ hne (beq_iff_eq.2 (Option.some.inj hlast))

/-- A prefix that does not end in a slash loses nothing when slashes are dropped from the whole. -/
theorem isPrefix_rdropWhile {p cs : List Char} (hp : p <+: cs) (hlast : p.getLast? ≠ some '/') :
    p <+: cs.rdropWhile (· == '/') := by
  induction cs using List.reverseRecOn with
  | nil => exact hp
  | append_singleton cs x ih =>
    rw [List.rdropWhile_concat]
    split_ifs with hx
    · obtain rfl := beq_iff_eq.1 hx
      rcases List.prefix_concat_iff.1 hp with rfl | hp
      · exact absurd List.getLast?_concat hlast
      · exact ih hp
    · exact hp

/-- **What is left is the longest prefix that does not end in a slash.** -/
theorem trimSlashes_isCore (s : String) : IsCore (trimSlashes s) s where
  isPrefix := by
    rw [trimSlashes_toList]
    exact List.rdropWhile_prefix _ _
  unslashed := trimSlashes_unslashed s
  longest p hp hlast := by
    have hle := (isPrefix_rdropWhile hp hlast).length_le
    rwa [← trimSlashes_toList, String.length_toList, String.length_toList] at hle

/-! ### Encoded names -/

namespace Percent

/-- Characters that stand for themselves. -/
def isPlain (c : Char) : Bool := c.isAlphanum || ['-', '_', '.', '~'].contains c

theorem isPlain_of_isUnreserved (b : UInt8) :
    isUnreserved b = true → isPlain (Char.ofNat b.toNat) = true := by
  revert b
  apply forall_byte
  decide +kernel

theorem written_encode (s : String) : Written isPlain (encode s).toList := by
  rw [encode_toList]
  exact written_write isPlain_of_isUnreserved _

/-- Characters that divide a URL do not occur in an encoded text. -/
theorem not_mem_encode {c : Char} (hc : c ∈ ['/', '?', '#']) (s : String) :
    c ∉ (encode s).toList := (written_encode s).not_mem (by decide) hc

end Percent

namespace Client

variable {σ : Type}

theorem make_addSlashes (b : String) (k : Nat) (transport : Transport σ)
    (policy : Option ExpiryPolicy) :
    make (addSlashes b k) transport policy = make b transport policy := by
  rw [make, make, trimSlashes_addSlashes]

theorem instanceUrl_eq (c : Client σ) (name : String) :
    c.instanceUrl name = c.baseUrl ++ "/api/v1/instance/" ++ Percent.encode name := by
  have hplace : "/api/v1" ++ ("/instance/" ++ Percent.encode name) =
      "/api/v1/instance/" ++ Percent.encode name := by
    rw [← String.append_assoc]
    rfl
  rw [instanceUrl, url, String.append_assoc, hplace, ← String.append_assoc]

theorem instanceUrl_injective (c : Client σ) : Function.Injective c.instanceUrl := by
  intro name name' h
  rw [instanceUrl_eq, instanceUrl_eq, String.append_right_inj] at h
  exact Percent.encode_injective h

/-- **What the URLs of a client depend on.** The base of a client is the longest prefix of its address
that does not end in a slash. However many slashes are added to the address, the base is the same, every
call has the same request, and making it does and answers the same. The URL of an instance is the base,
the place of the instances and a written form of the name: plain characters and escapes, without any
character that divides a URL, from which the name can be read back; and no two names have the same
URL. -/
theorem urls_of_address (b : String) (transport : Transport σ) (policy : Option ExpiryPolicy) :
    let c := make b transport policy
    IsCore c.baseUrl b ∧
    (∀ n, let c' := make (addSlashes b n) transport policy
      c'.baseUrl = c.baseUrl ∧ ∀ k : Call, k.request c' = k.request c ∧
        ∀ w, k.make c' w = k.make c w) ∧
    (∀ name, ∃ segment : String,
      c.instanceUrl name = c.baseUrl ++ "/api/v1/instance/" ++ segment ∧
      Percent.Written Percent.isPlain segment.toList ∧
      (∀ x ∈ ['/', '?', '#'], x ∉ segment.toList) ∧ Percent.decode segment = some name) ∧
    Function.Injective c.instanceUrl := by
  intro c
  refine ⟨trimSlashes_isCore b, fun n => ?_, fun name => ?_, c.instanceUrl_injective⟩
  · rw [make_addSlashes]
    exact ⟨rfl, fun k => ⟨rfl, fun w => rfl⟩⟩
  · exact ⟨Percent.encode name, c.instanceUrl_eq name, Percent.written_encode name,
      fun x hx => Percent.not_mem_encode hx name, Percent.decode_encode name⟩

/-- An address of slashes only leaves nothing. -/
example : (make "///" (σ := Unit) (fun q l => (.error ⟨q.url, ""⟩, l)) none).instanceUrl "100%25/é" =
    "/api/v1/instance/100%2525%2F%C3%A9" := by
  decide +kernel

end Client

end PanelClient

import Mathlib

/-!
# Framed lists

A part of a stream is self-delimiting if nothing can be cut off or added at its end: two streams that start with
such parts have the same parts and the same rests. A number in a fixed number of bytes is one, and so is a list
after its length.
-/

namespace Framing

variable {α β : Type*}

/-- No code is a proper beginning of another one. -/
def SelfDelimiting (code : α → List β) (valid : α → Prop) : Prop :=
  ∀ ⦃a b⦄, valid a → valid b → ∀ ⦃rest rest'⦄, code a ++ rest = code b ++ rest' → a = b ∧ rest = rest'

/-- Codes of one length are self-delimiting if they are injective. -/
theorem selfDelimiting_of_length {code : α → List β} {valid : α → Prop} {length : ℕ}
    (hlength : ∀ a, (code a).length = length)
    (hinj : ∀ a b, valid a → valid b → code a = code b → a = b) : SelfDelimiting code valid := by
  intro a b ha hb rest rest' heq
  obtain ⟨hcode, hrest⟩ := List.append_inj heq ((hlength a).trans (hlength b).symm)
  exact ⟨hinj a b ha hb hcode, hrest⟩

/-- One code after another. -/
theorem SelfDelimiting.append {γ : Type*} {code : α → List β} {valid : α → Prop} {code' : γ → List β}
    {valid' : γ → Prop} (h : SelfDelimiting code valid) (h' : SelfDelimiting code' valid') :
    SelfDelimiting (fun p : α × γ => code p.1 ++ code' p.2) fun p => valid p.1 ∧ valid' p.2 := by
  rintro ⟨a, c⟩ ⟨b, d⟩ ⟨ha, hc⟩ ⟨hb, hd⟩ rest rest' heq
  rw [List.append_assoc, List.append_assoc] at heq
  obtain ⟨rfl, hsecond⟩ := h ha hb heq
  obtain ⟨rfl, hrest⟩ := h' hc hd hsecond
  exact ⟨rfl, hrest⟩

/-- A list after the code of its length. -/
theorem SelfDelimiting.framed {length : ℕ → List β} {valid : ℕ → Prop} (h : SelfDelimiting length valid) :
    SelfDelimiting (fun l : List β => length l.length ++ l) fun l => valid l.length := by
  intro l k hl hk rest rest' heq
  rw [List.append_assoc, List.append_assoc] at heq
  obtain ⟨hlength, hcontent⟩ := h hl hk heq
  exact List.append_inj hcontent hlength

/-- A list up to something that is not in it. -/
theorem selfDelimiting_terminated (a : β) : SelfDelimiting (fun l : List β => l ++ [a]) (a ∉ ·) := by
  intro l k hl hk rest rest' heq
  dsimp only at heq
  rw [List.append_assoc, List.append_assoc] at heq
  induction l generalizing k with
  | nil =>
      cases k with
      | nil => exact ⟨rfl, (List.cons.inj heq).2⟩
      | cons b k => exact absurd ((List.cons.inj heq).1 ▸ List.mem_cons_self) hk
  | cons b l ih =>
      cases k with
      | nil => exact absurd ((List.cons.inj heq).1 ▸ List.mem_cons_self) hl
      | cons c k =>
          obtain ⟨hhead, htail⟩ := List.cons.inj heq
          obtain ⟨rfl, hrest⟩ := ih (List.not_mem_of_not_mem_cons hl) (List.not_mem_of_not_mem_cons hk) htail
          exact ⟨congrArg (· :: l) hhead, hrest⟩

/-- The codes of the elements of a list determine them, if none of them is empty. -/
theorem SelfDelimiting.flatMap_inj {code : α → List β} {valid : α → Prop} (h : SelfDelimiting code valid)
    (hne : ∀ a, valid a → code a ≠ []) {l k : List α} (hl : ∀ a ∈ l, valid a) (hk : ∀ a ∈ k, valid a)
    (heq : l.flatMap code = k.flatMap code) : l = k := by
  induction l generalizing k with
  | nil =>
      cases k with
      | nil => rfl
      | cons b k =>
          rw [List.flatMap_nil, List.flatMap_cons] at heq
          exact absurd (List.append_eq_nil_iff.mp heq.symm).1 (hne b (hk b List.mem_cons_self))
  | cons a l ih =>
      cases k with
      | nil =>
          rw [List.flatMap_nil, List.flatMap_cons] at heq
          exact absurd (List.append_eq_nil_iff.mp heq).1 (hne a (hl a List.mem_cons_self))
      | cons b k =>
          rw [List.flatMap_cons, List.flatMap_cons] at heq
          obtain ⟨ha, hl'⟩ := List.forall_mem_cons.mp hl
          obtain ⟨hb, hk'⟩ := List.forall_mem_cons.mp hk
          obtain ⟨rfl, hrest⟩ := h ha hb heq
          rw [ih hl' hk' hrest]

/-! ## Numbers -/

/-- A number in some bytes, the most significant one first. -/
def bigEndian : ℕ → ℕ → List UInt8
  | 0, _ => []
  | length + 1, n => UInt8.ofNat (n / 256 ^ length) :: bigEndian length (n % 256 ^ length)

@[simp] theorem length_bigEndian (length n : ℕ) : (bigEndian length n).length = length := by
  induction length generalizing n with
  | zero => rfl
  | succ length ih => rw [bigEndian, List.length_cons, ih]

theorem bigEndian_inj {length n m : ℕ} (hn : n < 256 ^ length) (hm : m < 256 ^ length)
    (heq : bigEndian length n = bigEndian length m) : n = m := by
  induction length generalizing n m with
  | zero => omega
  | succ length ih =>
      have hpos : 0 < 256 ^ length := Nat.pos_of_ne_zero (by positivity)
      obtain ⟨hhead, htail⟩ := List.cons.inj heq
      have hrest := ih (Nat.mod_lt _ hpos) (Nat.mod_lt _ hpos) htail
      have hdigit : ∀ k < 256 ^ (length + 1), k / 256 ^ length < 256 := fun k hk =>
        Nat.div_lt_of_lt_mul (by rwa [pow_succ] at hk)
      have hfirst : n / 256 ^ length = m / 256 ^ length := by
        have htoNat := congrArg UInt8.toNat hhead
        rwa [UInt8.toNat_ofNat', UInt8.toNat_ofNat', Nat.mod_eq_of_lt (hdigit n hn),
          Nat.mod_eq_of_lt (hdigit m hm)] at htoNat
      rw [← Nat.div_add_mod n (256 ^ length), ← Nat.div_add_mod m (256 ^ length), hfirst, hrest]

theorem selfDelimiting_bigEndian (length : ℕ) : SelfDelimiting (bigEndian length) (· < 256 ^ length) :=
  selfDelimiting_of_length (length_bigEndian length) fun _ _ => bigEndian_inj

end Framing

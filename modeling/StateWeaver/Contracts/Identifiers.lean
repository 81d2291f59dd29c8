import StateWeaver.Contracts.Base

/-!
# Identifiers made of digests

A tag that ends in a separator, followed by the first digits of a digest, is an identifier.
-/

namespace StateWeaver.Contracts

theorem isLowerAlnum_of_isLowerHex {c : Char} (h : c.isLowerHex = true) : isLowerAlnum c = true := by
  rw [Char.isLowerHex, Bool.or_eq_true] at h
  rw [isLowerAlnum, Bool.or_eq_true]
  rcases h with h | h
  · exact .inr h
  · left
    rw [Bool.and_eq_true, decide_eq_true_eq, decide_eq_true_eq] at h
    rw [Char.isLower, Bool.and_eq_true, decide_eq_true_eq, decide_eq_true_eq]
    exact ⟨h.1, Nat.le_trans h.2 (by decide)⟩

theorem digits_of_digest (digest : Sha256Digest) :
    (digest.val.toList.drop 7).length = 64 ∧
      ∀ c ∈ digest.val.toList.drop 7, c.isLowerHex = true := by
  have h := digest.matchesPattern
  simp only [isSha256Digest, isHexDigest, String.toList_ofList, Bool.and_eq_true, beq_iff_eq,
    List.all_eq_true] at h
  exact h.2

theorem foldl_next_body {l : List Char} (h : ∀ c ∈ l, c.isLowerHex = true) :
    l.foldl ContractIdPhase.next .body = .body := by
  induction l with
  | nil => rfl
  | cons c l ih =>
      obtain ⟨hc, hl⟩ := List.forall_mem_cons.mp h
      have hbody : ContractIdPhase.next .body c = .body := by
        rw [ContractIdPhase.next, isLowerAlnum_of_isLowerHex hc]
        rfl
      rw [List.foldl_cons, hbody, ih hl]

/-- A tag that ends in a separator, with digits after it, is an identifier. -/
theorem isContractId_of_tag {s tag : String} {digits : List Char} (htext : s.toList = tag.toList ++ digits)
    (htag : tag.toList.foldl ContractIdPhase.next .start = .separator) (hne : digits ≠ [])
    (hhex : ∀ c ∈ digits, c.isLowerHex = true) (hlower : 3 ≤ tag.toList.length + digits.length)
    (hupper : tag.toList.length + digits.length ≤ 128) : isContractId s = true := by
  rw [isContractId, Bool.and_eq_true, hasLength, htext, List.length_append, List.foldl_append, htag]
  refine ⟨by rw [decide_eq_true hlower, decide_eq_true hupper]; rfl, ?_⟩
  cases digits with
  | nil => exact absurd rfl hne
  | cons c digits =>
      obtain ⟨hc, hdigits⟩ := List.forall_mem_cons.mp hhex
      have hbody : ContractIdPhase.next .separator c = .body := by
        rw [ContractIdPhase.next, isLowerAlnum_of_isLowerHex hc]
        rfl
      rw [List.foldl_cons, hbody, foldl_next_body hdigits]
      rfl

/-- The first digits of a digest, with a tag. -/
def taggedDigits (tag : String) (count : Nat) (digest : Sha256Digest) : String :=
  tag ++ String.ofList ((digest.val.toList.drop 7).take count)

theorem toList_taggedDigits (tag : String) (count : Nat) (digest : Sha256Digest) :
    (taggedDigits tag count digest).toList = tag.toList ++ (digest.val.toList.drop 7).take count := by
  rw [taggedDigits, String.toList_append, String.toList_ofList]

theorem isContractId_taggedDigits {tag : String} {count : Nat}
    (htag : tag.toList.foldl ContractIdPhase.next .start = .separator) (hpositive : 0 < count)
    (hcount : count ≤ 64) (hlower : 3 ≤ tag.toList.length + count)
    (hupper : tag.toList.length + count ≤ 128) (digest : Sha256Digest) :
    isContractId (taggedDigits tag count digest) = true := by
  obtain ⟨hlength, hdigits⟩ := digits_of_digest digest
  have htake : ((digest.val.toList.drop 7).take count).length = count := by
    rw [List.length_take, hlength, Nat.min_eq_left hcount]
  refine isContractId_of_tag (toList_taggedDigits tag count digest) htag ?_
    (fun c hc => hdigits c (List.mem_of_mem_take hc)) (by rwa [htake]) (by rwa [htake])
  exact List.ne_nil_of_length_pos (by rwa [htake])

end StateWeaver.Contracts

import StateWeaver.Bridge.CheckpointShards
import StateWeaver.Lib.Utf8
import StateWeaver.Lib.IntBytes
import StateWeaver.Lib.Wire

/-!
# What PostgreSQL and Redis reply

The bridge reads replies of PostgreSQL and of Redis from a socket, a fixed number of bytes at a time. The grammar of
the replies is stated apart from the readers.
-/

namespace StateWeaver.Bridge

open Wire (Reader Connection recv Reads Sequence)

/-- `_MAX_PROVIDER_REPLY_BYTES`. -/
def maxProviderReplyBytes : ℕ := 262144

/-- What a reader raises that is not a `ProviderBridgeError`. -/
def IsUnexpected (e : Exc) : Prop := e.isBridgeError = false

/-- `raise ProviderBridgeError(message)`. -/
def reject {α : Type} (message : String) : Reader Exc α := throw (.raised (Exc.bridge message))

theorem reads_reject {α : Type} (message : String) :
    Reads IsUnexpected (reject message : Reader Exc α) (fun _ _ => False) fun _ => False :=
  (Wire.reads_throw (Exc.bridge message)).congr (fun _ _ => Iff.rfl) fun _ => iff_of_false Bool.noConfusion id

/-! ## A fixed number of bytes -/

/-- The loop of `_read_exact`. -/
def readExactLoop (length : ℕ) (output : {output : List UInt8 // output.length ≤ length}) :
    Reader Exc {bytes : List UInt8 // bytes.length = length} := do
  if hmore : output.1.length < length then
    let chunk ← recv (length - output.1.length)
    if hchunk : chunk.1 = [] then
      reject "provider closed a reply early"
    else
      readExactLoop length ⟨output.1 ++ chunk.1, by
        rw [List.length_append]
        exact Nat.add_le_of_le_sub' output.2 chunk.2⟩
  else
    return ⟨output.1, Nat.le_antisymm output.2 (Nat.le_of_not_lt hmore)⟩
termination_by length - output.1.length
decreasing_by
  rw [List.length_append]
  have hpos := List.length_pos_iff.mpr hchunk
  omega

/-- `_read_exact`. -/
def readExact (length : ℤ) : Reader Exc {bytes : List UInt8 // bytes.length = length.toNat} :=
  if 0 ≤ length ∧ length ≤ maxProviderReplyBytes then
    readExactLoop length.toNat ⟨[], Nat.zero_le _⟩
  else
    reject "provider reply exceeded its fixed boundary"

section Loop

variable {length : ℕ} {output : {output : List UInt8 // output.length ≤ length}} {c c' : Connection}

/-- One turn of the loop. -/
theorem readExactLoop_eq (hmore : output.1.length < length) : readExactLoop length output c =
    match recv (length - output.1.length) c with
    | .error stop c₁ => .error stop c₁
    | .ok chunk c₁ =>
        if chunk.1 = [] then reject "provider closed a reply early" c₁
        else readExactLoop length ⟨output.1 ++ chunk.1, by
          rw [List.length_append]
          exact Nat.add_le_of_le_sub' output.2 chunk.2⟩ c₁ := by
  rw [readExactLoop, dif_pos hmore]
  cases h : recv (ε := Exc) (length - output.1.length) c with
  | error stop c₁ =>
      simp only [bind, EStateM.bind, h]
  | ok chunk c₁ =>
      simp only [bind, EStateM.bind, h]
      split <;> rfl

theorem readExactLoop_eq_ok {bytes : {bytes : List UInt8 // bytes.length = length}}
    (h : readExactLoop length output c = .ok bytes c') :
    ∃ encoding, bytes.1 = output.1 ++ encoding ∧ c.data = encoding ++ c'.data ∧ c'.closed = c.closed := by
  induction hn : length - output.1.length using Nat.strong_induction_on generalizing output c with
  | _ n ih =>
    subst hn
    by_cases hmore : output.1.length < length
    · rw [readExactLoop_eq hmore] at h
      cases hrecv : recv (ε := Exc) (length - output.1.length) c with
      | error stop c₁ =>
          rw [hrecv] at h
          cases h
      | ok chunk c₁ =>
          rw [hrecv] at h
          dsimp only at h
          obtain ⟨hdata, hclosed⟩ := Wire.recv_eq_ok hrecv
          split at h
          · cases h
          · next hchunk =>
            have hpos := List.length_pos_iff.mpr hchunk
            obtain ⟨encoding, hbytes, hrest, hclosed'⟩ := ih _ (by
              rw [List.length_append]
              omega) h rfl
            refine ⟨chunk.1 ++ encoding, ?_, ?_, hclosed'.trans hclosed⟩
            · rw [hbytes, List.append_assoc]
            · rw [hdata, hrest, List.append_assoc]
    · rw [readExactLoop, dif_neg hmore] at h
      cases h
      exact ⟨[], (List.append_nil _).symm, rfl, rfl⟩

/-- The loop returns if the bytes that are missing arrive, in whatever pieces. -/
theorem readExactLoop_of_data {encoding rest : List UInt8} (hlength : output.1.length + encoding.length = length)
    (hdata : c.data = encoding ++ rest) : ∃ bytes c', readExactLoop length output c = .ok bytes c' ∧ c'.data = rest := by
  induction hn : length - output.1.length using Nat.strong_induction_on generalizing output c encoding with
  | _ n ih =>
    subst hn
    by_cases hmore : output.1.length < length
    · have hne : c.data ≠ [] := by
        intro h
        rw [hdata] at h
        rw [(List.append_eq_nil_iff.mp h).1, List.length_nil] at hlength
        omega
      rw [readExactLoop_eq hmore]
      cases hrecv : recv (ε := Exc) (length - output.1.length) c with
      | error stop c₁ => exact absurd (Wire.recv_eq_error hrecv).2.2 hne
      | ok chunk c₁ =>
          dsimp only
          have hchunk : chunk.1 ≠ [] := fun h => hne (Wire.recv_eq_nil (Nat.sub_pos_of_lt hmore) hrecv h)
          have hpos := List.length_pos_iff.mpr hchunk
          have hfits := chunk.2
          rw [if_neg hchunk]
          -- the piece that has arrived is a beginning of what is missing
          rw [(Wire.recv_eq_ok hrecv).1] at hdata
          obtain ⟨missing, rfl⟩ : chunk.1 <+: encoding :=
            List.prefix_of_prefix_length_le (List.prefix_append chunk.1 c₁.data) ⟨rest, hdata.symm⟩ (by omega)
          rw [List.append_assoc, List.append_cancel_left_eq] at hdata
          rw [List.length_append] at hlength
          refine ih _ ?_ ?_ hdata rfl
          · rw [List.length_append]
            omega
          · rw [List.length_append]
            omega
    · obtain rfl : encoding = [] := List.length_eq_zero_iff.mp (by omega)
      rw [readExactLoop, dif_neg hmore]
      exact ⟨_, c, rfl, hdata⟩

/-- The loop raises nothing unexpected, and it waits only for an open connection. -/
theorem readExactLoop_eq_error {stop : Wire.Stop Exc} (h : readExactLoop length output c = .error stop c') :
    (∀ e, stop = .raised e → ¬IsUnexpected e) ∧ (stop = .waits → c.closed = false) := by
  induction hn : length - output.1.length using Nat.strong_induction_on generalizing output c with
  | _ n ih =>
    subst hn
    by_cases hmore : output.1.length < length
    · rw [readExactLoop_eq hmore] at h
      cases hrecv : recv (ε := Exc) (length - output.1.length) c with
      | error stop' c₁ =>
          rw [hrecv] at h
          cases h
          obtain ⟨rfl, hclosed, -⟩ := Wire.recv_eq_error hrecv
          exact ⟨nofun, fun _ => hclosed⟩
      | ok chunk c₁ =>
          rw [hrecv] at h
          dsimp only at h
          split at h
          · cases h
            refine ⟨fun e he => ?_, nofun⟩
            cases he
            exact Bool.noConfusion
          · next hchunk =>
            have hpos := List.length_pos_iff.mpr hchunk
            obtain ⟨hraised, hwaits⟩ := ih _ (by
              rw [List.length_append]
              omega) h rfl
            exact ⟨hraised, fun hstop => (Wire.recv_eq_ok hrecv).2 ▸ hwaits hstop⟩
    · rw [readExactLoop, dif_neg hmore] at h
      cases h

end Loop

/-- `_read_exact` takes the bytes that come next, in whatever pieces they arrive. -/
theorem reads_readExact (length : ℤ) : Reads IsUnexpected (readExact length)
    (fun bytes encoding => (0 ≤ length ∧ length ≤ maxProviderReplyBytes) ∧ bytes.1 = encoding) fun _ => False := by
  have hloop : Reads IsUnexpected (readExactLoop length.toNat ⟨[], Nat.zero_le _⟩)
      (fun bytes encoding => bytes.1 = encoding) fun _ => False := by
    refine ⟨fun c bytes rest => ?_, fun c => ?_, fun c bytes c' h => ?_, fun c c' h => ?_⟩
    · constructor
      · rintro ⟨c', h, rfl⟩
        obtain ⟨encoding, hbytes, hdata, -⟩ := readExactLoop_eq_ok h
        exact ⟨encoding, hbytes, hdata⟩
      · rintro ⟨encoding, rfl, hdata⟩
        obtain ⟨bytes', c', h, hrest⟩ := @readExactLoop_of_data _ ⟨[], Nat.zero_le _⟩ c bytes.1 rest
          ((Nat.zero_add _).trans bytes.2) hdata
        obtain ⟨encoding', hbytes, hdata', -⟩ := readExactLoop_eq_ok h
        rw [hrest, hdata] at hdata'
        obtain rfl : bytes' = bytes := Subtype.ext (hbytes.trans (List.append_cancel_right hdata').symm)
        exact ⟨c', h, hrest⟩
    · refine iff_of_false ?_ id
      rintro ⟨e, c', hunexpected, h⟩
      exact (readExactLoop_eq_error h).1 e rfl hunexpected
    · obtain ⟨-, -, -, hclosed⟩ := readExactLoop_eq_ok h
      exact hclosed
    · exact (readExactLoop_eq_error h).2 rfl
  exact (hloop.require (Bool.noConfusion : ¬IsUnexpected (Exc.bridge _))).congr (fun _ _ => Iff.rfl)
    fun _ => iff_of_false And.right id

/-! ## Lines -/

def crlf : List UInt8 := [13, 10]

/-- The loop of `line`. -/
def lineLoop (output : List UInt8) : Reader Exc (List UInt8) := do
  let value ← readExact 1
  if crlf <:+ output ++ value.1 then
    return (output ++ value.1).rdrop 2
  else if maxProviderReplyBytes < (output ++ value.1).length then
    reject "Redis reply exceeded its fixed boundary"
  else
    lineLoop (output ++ value.1)
termination_by maxProviderReplyBytes + 1 - output.length
decreasing_by
  have hvalue : value.1.length = 1 := value.2
  simp only [List.length_append] at *
  omega

/-- `line`. -/
def line : Reader Exc (List UInt8) := lineLoop []

/-- The content of a line within the bound. -/
def IsLine (content : List UInt8) : Prop := ¬crlf <:+: content ∧ content.length < maxProviderReplyBytes

/-- The first line end ends the line. -/
theorem eq_of_append_crlf {content front second : List UInt8} (hcontent : ¬crlf <:+: content)
    (h : front ++ crlf ++ second = content ++ crlf) : front = content ∧ second = [] := by
  rcases List.eq_nil_or_concat second with rfl | ⟨middle, b, rfl⟩
  · rw [List.append_nil] at h
    exact ⟨List.append_cancel_right h, rfl⟩
  · have hinit : front ++ crlf ++ middle = content ++ [13] := by
      rw [List.concat_eq_append, ← List.append_assoc] at h
      have hcrlf : content ++ crlf = content ++ [13] ++ [10] := by rw [List.append_assoc]; rfl
      rw [hcrlf] at h
      exact (List.append_inj' h rfl).1
    have hinfix : crlf <:+: content ++ [13] := ⟨front, middle, hinit⟩
    rcases List.infix_concat_iff.mp hinfix with hsuffix | hinfix
    · rw [show crlf = [13] ++ [10] from rfl] at hsuffix
      obtain ⟨before, hbefore⟩ := hsuffix
      rw [← List.append_assoc] at hbefore
      exact absurd (List.append_inj' hbefore rfl).2 (by decide)
    · exact absurd hinfix hcontent

theorem reads_lineLoop (output : List UInt8) (hfree : ¬crlf <:+: output) (hlength : output.length ≤ maxProviderReplyBytes) :
    Reads IsUnexpected (lineLoop output) (fun content encoding => IsLine content ∧ output ++ encoding = content ++ crlf)
      fun _ => False := by
  induction hn : maxProviderReplyBytes - output.length using Nat.strong_induction_on generalizing output with
  | _ n ih =>
    subst hn
    have hnext : ∀ value : {bytes : List UInt8 // bytes.length = (1 : ℤ).toNat}, Reads IsUnexpected
        (if crlf <:+ output ++ value.1 then return (output ++ value.1).rdrop 2
        else if maxProviderReplyBytes < (output ++ value.1).length then
          reject "Redis reply exceeded its fixed boundary"
        else lineLoop (output ++ value.1))
        (fun content second => IsLine content ∧ output ++ value.1 ++ second = content ++ crlf) fun _ => False := by
      intro value
      have hvalue : value.1.length = 1 := value.2
      by_cases hend : crlf <:+ output ++ value.1
      · rw [if_pos hend]
        obtain ⟨front, hfront⟩ := hend
        rw [← hfront]
        have hdrop : (front ++ crlf).rdrop 2 = front := by
          rw [List.rdrop_eq_reverse_drop_reverse, List.reverse_append]
          exact List.reverse_reverse front
        rw [hdrop]
        refine (Wire.reads_pure front).congr (fun content second => ?_) fun _ => Iff.rfl
        constructor
        · rintro ⟨rfl, rfl⟩
          have hlengths := congrArg List.length hfront
          rw [List.length_append, List.length_append, hvalue] at hlengths
          refine ⟨⟨fun hinfix => hfree ?_, ?_⟩, List.append_nil _⟩
          · have hprefix : content <+: output := by
              refine List.prefix_of_prefix_length_le (hfront ▸ List.prefix_append content crlf)
                (List.prefix_append output value.1) ?_
              have : crlf.length = 2 := rfl
              omega
            exact hinfix.trans hprefix.isInfix
          · have : crlf.length = 2 := rfl
            omega
        · rintro ⟨hline, h⟩
          obtain ⟨rfl, rfl⟩ := eq_of_append_crlf hline.1 h
          exact ⟨rfl, rfl⟩
      · rw [if_neg hend]
        by_cases hlong : maxProviderReplyBytes < (output ++ value.1).length
        · rw [if_pos hlong]
          refine (reads_reject _).congr (fun content second => ?_) fun _ => Iff.rfl
          refine iff_of_false id fun ⟨hline, h⟩ => hend ?_
          have hlengths := congrArg List.length h
          have htwo : crlf.length = 2 := rfl
          have hbound := hline.2
          rw [List.length_append, @List.length_append _ content crlf] at hlengths
          obtain rfl : second = [] := List.length_eq_zero_iff.mp (by omega)
          exact ⟨content, by rw [← h, List.append_nil]⟩
        · rw [if_neg hlong]
          refine ih _ ?_ _ (fun hinfix => ?_) (Nat.le_of_not_lt hlong) rfl
          · rw [List.length_append] at hlong ⊢
            omega
          · obtain ⟨b, hb⟩ := List.length_eq_one_iff.mp hvalue
            rw [hb] at hinfix hend
            exact (List.infix_concat_iff.mp hinfix).elim hend hfree
    rw [lineLoop]
    refine ((reads_readExact 1).bind hnext).congr (fun content encoding => ?_) fun data => ?_
    · constructor
      · rintro ⟨value, first, second, ⟨-, rfl⟩, ⟨hline, h⟩, rfl⟩
        exact ⟨hline, by rw [← h, List.append_assoc]⟩
      · rintro ⟨hline, h⟩
        cases encoding with
        | nil => exact absurd ⟨content, [], by rw [List.append_nil, ← h, List.append_nil]⟩ hfree
        | cons b second =>
            refine ⟨⟨[b], rfl⟩, [b], second, ⟨by decide, rfl⟩, ⟨hline, ?_⟩, rfl⟩
            rw [← h, List.append_assoc]
            rfl
    · exact iff_of_false (fun h => h.elim id fun ⟨_, _, _, _, h, _⟩ => h) id

/-- `line` takes a line. -/
theorem reads_line : Reads IsUnexpected line (fun content encoding => IsLine content ∧ encoding = content ++ crlf)
    fun _ => False :=
  reads_lineLoop [] (fun h => absurd (List.infix_nil.mp h) (by decide)) (Nat.zero_le _)

end StateWeaver.Bridge

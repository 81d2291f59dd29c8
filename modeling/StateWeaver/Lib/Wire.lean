import Mathlib
import StateWeaver.Lib.Imperative

/-!
# Readers of a stream of bytes

A connection holds the bytes that are still to be received in the pieces in which they arrive. A reader takes bytes
from it. What matters about a reader is its grammar, i.e. which bytes it takes for which value, and the streams on
which it breaks, i.e. raises what it must not raise. Both speak about the bytes that arrive and not about their
pieces, and both are put together from those of the reader's parts.
-/

namespace Wire

/-- The pieces in which bytes arrive, and whether the other side closes the connection after the last one. -/
structure Connection where
  pieces : List (List UInt8)
  pieces_ne : ∀ piece ∈ pieces, piece ≠ []
  closed : Bool

/-- The bytes that are still to be received. -/
def Connection.data (c : Connection) : List UInt8 := c.pieces.flatten

/-- A reader that does not return waits for more bytes, or it raises. -/
inductive Stop (ε : Type)
  | waits
  | raised (e : ε)

/-- A computation that takes bytes from a connection. -/
abbrev Reader (ε α : Type) := Imp Connection (Stop ε) α

variable {ε α β : Type} {wrong : ε → Prop}

/-! ## Receiving -/

/-- `recv(limit)`: at most so many bytes of the piece that arrives next, none if the connection is closed. -/
def recv (limit : ℕ) : Reader ε {piece : List UInt8 // piece.length ≤ limit} := fun c =>
  match hpieces : c.pieces with
  | [] => if c.closed then .ok ⟨[], Nat.zero_le _⟩ c else .error .waits c
  | piece :: rest =>
      if hfits : piece.length ≤ limit then
        .ok ⟨piece, hfits⟩ ⟨rest, fun _ h => c.pieces_ne _ (hpieces ▸ List.mem_cons_of_mem _ h), c.closed⟩
      else
        .ok ⟨piece.take limit, List.length_take_le _ _⟩
          ⟨piece.drop limit :: rest, List.forall_mem_cons.mpr ⟨List.drop_eq_nil_iff.not.mpr hfits,
            fun _ h => c.pieces_ne _ (hpieces ▸ List.mem_cons_of_mem _ h)⟩, c.closed⟩

/-- Bytes that are received come first in the stream. -/
theorem recv_eq_ok {limit : ℕ} {c c' : Connection} {piece : {piece : List UInt8 // piece.length ≤ limit}}
    (h : recv (ε := ε) limit c = .ok piece c') : c.data = piece.1 ++ c'.data ∧ c'.closed = c.closed := by
  unfold recv at h
  split at h
  · split at h <;> cases h
    exact ⟨rfl, rfl⟩
  · next first rest hpieces =>
    rw [Connection.data, hpieces, List.flatten_cons]
    split at h <;> cases h
    · exact ⟨rfl, rfl⟩
    · refine ⟨?_, rfl⟩
      rw [Connection.data, List.flatten_cons, ← List.append_assoc, List.take_append_drop]

/-- Nothing is received only if nothing is left. -/
theorem recv_eq_nil {limit : ℕ} (hlimit : 0 < limit) {c c' : Connection}
    {piece : {piece : List UInt8 // piece.length ≤ limit}} (h : recv (ε := ε) limit c = .ok piece c')
    (hnil : piece.1 = []) : c.data = [] := by
  unfold recv at h
  split at h
  · next hpieces => rw [Connection.data, hpieces, List.flatten_nil]
  · next first rest hpieces =>
    have hne : first ≠ [] := c.pieces_ne first (hpieces ▸ List.mem_cons_self)
    split at h <;> cases h
    · exact absurd hnil hne
    · exact absurd (List.take_eq_nil_iff.mp hnil) (not_or.mpr ⟨Nat.pos_iff_ne_zero.mp hlimit, hne⟩)

/-- Receiving waits only if nothing is left and the connection is open. -/
theorem recv_eq_error {limit : ℕ} {c c' : Connection} {stop : Stop ε} (h : recv limit c = .error stop c') :
    stop = .waits ∧ c.closed = false ∧ c.data = [] := by
  unfold recv at h
  split at h
  · next hpieces =>
    split at h <;> cases h
    next hclosed => exact ⟨rfl, Bool.eq_false_iff.mpr hclosed, by rw [Connection.data, hpieces, List.flatten_nil]⟩
  · split at h <;> cases h

/-! ## Grammars -/

/-- The reader takes an encoding for a value exactly if the grammar says so, it raises what is wrong exactly on the
broken streams, and it waits only for a connection that is open. -/
structure Reads (wrong : ε → Prop) (reader : Reader ε α) (grammar : α → List UInt8 → Prop)
    (broken : List UInt8 → Prop) : Prop where
  ok_iff : ∀ c a rest, (∃ c', reader c = .ok a c' ∧ c'.data = rest) ↔
    ∃ encoding, grammar a encoding ∧ c.data = encoding ++ rest
  wrong_iff : ∀ c, (∃ e c', wrong e ∧ reader c = .error (.raised e) c') ↔ broken c.data
  closed_eq : ∀ c a c', reader c = .ok a c' → c'.closed = c.closed
  open_of_waits : ∀ c c', reader c = .error .waits c' → c.closed = false

/-- The same grammar in other words. -/
theorem Reads.congr {reader : Reader ε α} {grammar grammar' : α → List UInt8 → Prop} {broken broken' : List UInt8 → Prop}
    (h : Reads wrong reader grammar broken) (hgrammar : ∀ a encoding, grammar a encoding ↔ grammar' a encoding)
    (hbroken : ∀ data, broken data ↔ broken' data) : Reads wrong reader grammar' broken' := by
  obtain rfl : grammar = grammar' := funext₂ fun a encoding => propext (hgrammar a encoding)
  obtain rfl : broken = broken' := funext fun data => propext (hbroken data)
  exact h

/-- What the reader takes for a value, and leaves. -/
theorem Reads.of_ok {reader : Reader ε α} {grammar : α → List UInt8 → Prop} {broken : List UInt8 → Prop}
    (h : Reads wrong reader grammar broken) {c c' : Connection} {a : α} (hrun : reader c = .ok a c') :
    ∃ encoding, grammar a encoding ∧ c.data = encoding ++ c'.data :=
  (h.ok_iff c a c'.data).mp ⟨c', hrun, rfl⟩

/-- A computation that takes no bytes. -/
theorem reads_lift (x : Except ε α) : Reads wrong (Imp.lift (x.mapError .raised))
    (fun a encoding => x = .ok a ∧ encoding = []) fun _ => ∃ e, wrong e ∧ x = .error e := by
  cases x with
  | ok a =>
      refine ⟨fun c b rest => ?_, fun c => ?_, fun c b c' h => ?_, fun c c' h => ?_⟩
      · constructor
        · rintro ⟨c', h, rfl⟩
          cases h
          exact ⟨[], ⟨rfl, rfl⟩, rfl⟩
        · rintro ⟨_, ⟨h, rfl⟩, hdata⟩
          cases h
          exact ⟨c, rfl, hdata⟩
      · exact iff_of_false (fun ⟨_, _, _, h⟩ => nomatch h) fun ⟨_, _, h⟩ => nomatch h
      · cases h
        rfl
      · cases h
  | error e =>
      refine ⟨fun c b rest => ?_, fun c => ?_, fun c b c' h => ?_, fun c c' h => ?_⟩
      · exact iff_of_false (fun ⟨_, h, _⟩ => nomatch h) fun ⟨_, ⟨h, _⟩, _⟩ => nomatch h
      · constructor
        · rintro ⟨e', c', hwrong, h⟩
          cases h
          exact ⟨e, hwrong, rfl⟩
        · rintro ⟨_, hwrong, h⟩
          cases h
          exact ⟨e, c, hwrong, rfl⟩
      · cases h
      · cases h

theorem reads_pure (a : α) :
    Reads wrong (pure a : Reader ε α) (fun b encoding => b = a ∧ encoding = []) fun _ => False :=
  (reads_lift (.ok a)).congr (fun b encoding => by rw [Except.ok.injEq, eq_comm (a := a)])
    fun _ => iff_of_false (fun ⟨_, _, h⟩ => nomatch h) id

theorem reads_throw (e : ε) :
    Reads wrong (throw (.raised e) : Reader ε α) (fun _ _ => False) fun _ => wrong e :=
  (reads_lift (.error e)).congr (fun b encoding => iff_of_false (fun ⟨h, _⟩ => nomatch h) id) fun _ => by
    constructor
    · rintro ⟨_, hwrong, h⟩
      cases h
      exact hwrong
    · exact fun hwrong => ⟨e, hwrong, rfl⟩

/-- One reader after another. -/
theorem Reads.bind {reader : Reader ε α} {next : α → Reader ε β} {grammar : α → List UInt8 → Prop}
    {grammar' : α → β → List UInt8 → Prop} {broken : List UInt8 → Prop} {broken' : α → List UInt8 → Prop}
    (h : Reads wrong reader grammar broken) (hnext : ∀ a, Reads wrong (next a) (grammar' a) (broken' a)) :
    Reads wrong (reader >>= next)
      (fun b encoding => ∃ a first second, grammar a first ∧ grammar' a b second ∧ encoding = first ++ second)
      fun data => broken data ∨ ∃ a first rest, grammar a first ∧ broken' a rest ∧ data = first ++ rest := by
  refine ⟨fun c b rest => ?_, fun c => ?_, fun c b c' hrun => ?_, fun c c' hrun => ?_⟩
  · constructor
    · rintro ⟨c', hrun, rfl⟩
      obtain ⟨a, c₁, hfirst, hsecond⟩ := Imp.bind_eq_ok.mp hrun
      obtain ⟨first, hgrammar, hdata⟩ := h.of_ok hfirst
      obtain ⟨second, hgrammar', hdata'⟩ := (hnext a).of_ok hsecond
      exact ⟨first ++ second, ⟨a, first, second, hgrammar, hgrammar', rfl⟩, by
        rw [hdata, hdata', List.append_assoc]⟩
    · rintro ⟨_, ⟨a, first, second, hgrammar, hgrammar', rfl⟩, hdata⟩
      rw [List.append_assoc] at hdata
      obtain ⟨c₁, hfirst, hrest⟩ := (h.ok_iff c a (second ++ rest)).mpr ⟨first, hgrammar, hdata⟩
      obtain ⟨c', hsecond, hrest'⟩ := ((hnext a).ok_iff c₁ b rest).mpr ⟨second, hgrammar', hrest⟩
      exact ⟨c', Imp.bind_eq_ok.mpr ⟨a, c₁, hfirst, hsecond⟩, hrest'⟩
  · constructor
    · rintro ⟨e, c', hwrong, hrun⟩
      rcases Imp.bind_eq_error.mp hrun with hfirst | ⟨a, c₁, hfirst, hsecond⟩
      · exact .inl ((h.wrong_iff c).mp ⟨e, c', hwrong, hfirst⟩)
      · obtain ⟨first, hgrammar, hdata⟩ := h.of_ok hfirst
        exact .inr ⟨a, first, c₁.data, hgrammar, ((hnext a).wrong_iff c₁).mp ⟨e, c', hwrong, hsecond⟩, hdata⟩
    · rintro (hbroken | ⟨a, first, rest, hgrammar, hbroken, hdata⟩)
      · obtain ⟨e, c', hwrong, hrun⟩ := (h.wrong_iff c).mpr hbroken
        exact ⟨e, c', hwrong, Imp.bind_eq_error.mpr (.inl hrun)⟩
      · obtain ⟨c₁, hfirst, hrest⟩ := (h.ok_iff c a rest).mpr ⟨first, hgrammar, hdata⟩
        obtain ⟨e, c', hwrong, hrun⟩ := ((hnext a).wrong_iff c₁).mpr (hrest ▸ hbroken)
        exact ⟨e, c', hwrong, Imp.bind_eq_error.mpr (.inr ⟨a, c₁, hfirst, hrun⟩)⟩
  · obtain ⟨a, c₁, hfirst, hsecond⟩ := Imp.bind_eq_ok.mp hrun
    rw [(hnext a).closed_eq c₁ b c' hsecond, h.closed_eq c a c₁ hfirst]
  · rcases Imp.bind_eq_error.mp hrun with hfirst | ⟨a, c₁, hfirst, hsecond⟩
    · exact h.open_of_waits c c' hfirst
    · rw [← h.closed_eq c a c₁ hfirst]
      exact (hnext a).open_of_waits c₁ c' hsecond

/-- A check before a reader. -/
theorem Reads.require {reader : Reader ε α} {grammar : α → List UInt8 → Prop} {broken : List UInt8 → Prop}
    {condition : Prop} [Decidable condition] {e : ε} (h : Reads wrong reader grammar broken) (he : ¬wrong e) :
    Reads wrong (if condition then reader else throw (.raised e))
      (fun a encoding => condition ∧ grammar a encoding) fun data => condition ∧ broken data := by
  by_cases hcondition : condition
  · rw [if_pos hcondition]
    exact h.congr (fun a encoding => (and_iff_right hcondition).symm)
      fun data => (and_iff_right hcondition).symm
  · rw [if_neg hcondition]
    exact (reads_throw e).congr (fun a encoding => iff_of_false id fun h => hcondition h.1)
      fun data => iff_of_false he fun h => hcondition h.1

/-! ## Values one after another -/

/-- The encodings of some values, one after another. -/
def Sequence (grammar : α → List UInt8 → Prop) : List α → List UInt8 → Prop
  | [], encoding => encoding = []
  | a :: values, encoding =>
      ∃ first second, grammar a first ∧ Sequence grammar values second ∧ encoding = first ++ second

/-- What holds for the encodings of the values holds for all of them. -/
theorem Sequence.mono {grammar grammar' : α → List UInt8 → Prop} {values : List α} {encoding : List UInt8}
    (h : Sequence grammar values encoding) (himp : ∀ a ∈ values, ∀ encoding, grammar a encoding → grammar' a encoding) :
    Sequence grammar' values encoding := by
  induction values generalizing encoding with
  | nil => exact h
  | cons a values ih =>
      obtain ⟨first, second, hfirst, hsecond, rfl⟩ := h
      exact ⟨first, second, himp a List.mem_cons_self first hfirst,
        ih hsecond fun b hb => himp b (List.mem_cons_of_mem a hb), rfl⟩

/-- A fixed number of runs of a reader. -/
def many (reader : Reader ε α) : ℕ → Reader ε (List α)
  | 0 => pure []
  | count + 1 => do
      let a ← reader
      let values ← many reader count
      return a :: values

theorem Reads.many {reader : Reader ε α} {grammar : α → List UInt8 → Prop} {broken : List UInt8 → Prop}
    (h : Reads wrong reader grammar broken) (count : ℕ) : Reads wrong (many reader count)
      (fun values encoding => values.length = count ∧ Sequence grammar values encoding)
      fun data => ∃ values first rest, values.length < count ∧ Sequence grammar values first ∧ broken rest ∧
        data = first ++ rest := by
  induction count with
  | zero =>
      refine (reads_pure []).congr (fun values encoding => ?_) fun data => ?_
      · constructor
        · rintro ⟨rfl, rfl⟩
          exact ⟨rfl, rfl⟩
        · rintro ⟨hlength, hsequence⟩
          obtain rfl := List.length_eq_zero_iff.mp hlength
          exact ⟨rfl, hsequence⟩
      · exact iff_of_false id fun ⟨_, _, _, h, _⟩ => nomatch h
  | succ count ih =>
      refine (h.bind fun a => ih.bind fun values => reads_pure (a :: values)).congr (fun values encoding => ?_)
        fun data => ?_
      · constructor
        · rintro ⟨a, first, _, hfirst, ⟨values, second, _, ⟨rfl, hsecond⟩, ⟨rfl, rfl⟩, rfl⟩, rfl⟩
          refine ⟨rfl, first, second, hfirst, hsecond, ?_⟩
          rw [List.append_nil]
        · rintro ⟨hlength, hsequence⟩
          cases values with
          | nil => cases hlength
          | cons a values =>
              obtain ⟨first, second, hfirst, hsecond, rfl⟩ := hsequence
              exact ⟨a, first, second, hfirst, ⟨values, second, [], ⟨Nat.succ.inj hlength, hsecond⟩, ⟨rfl, rfl⟩,
                (List.append_nil second).symm⟩, rfl⟩
      · constructor
        · rintro (hbroken | ⟨a, first, _, hfirst, hbroken, rfl⟩)
          · exact ⟨[], [], data, Nat.succ_pos count, rfl, hbroken, rfl⟩
          · rcases hbroken with ⟨values, second, rest, hlength, hsecond, hbroken, rfl⟩ | ⟨_, _, _, _, hfalse, _⟩
            · exact ⟨a :: values, first ++ second, rest, Nat.succ_lt_succ hlength,
                ⟨first, second, hfirst, hsecond, rfl⟩, hbroken, (List.append_assoc _ _ _).symm⟩
            · exact hfalse.elim
        · rintro ⟨values, first, rest, hlength, hsequence, hbroken, rfl⟩
          cases values with
          | nil =>
              obtain rfl := hsequence
              exact .inl hbroken
          | cons a values =>
              obtain ⟨first, second, hfirst, hsecond, rfl⟩ := hsequence
              refine .inr ⟨a, first, second ++ rest, hfirst, .inl ?_, List.append_assoc _ _ _⟩
              exact ⟨values, second, rest, Nat.lt_of_succ_lt_succ hlength, hsecond, hbroken, rfl⟩

/-! ## Messages until one that ends the loop -/

/-- A reader that takes something whenever it returns. -/
def Progress (reader : Reader ε α) : Prop :=
  ∀ c a c', reader c = .ok a c' → c'.data.length < c.data.length

theorem Reads.progress {reader : Reader ε α} {grammar : α → List UInt8 → Prop} {broken : List UInt8 → Prop}
    (h : Reads wrong reader grammar broken) (hne : ∀ a, ¬grammar a []) : Progress reader := by
  intro c a c' hrun
  obtain ⟨encoding, hgrammar, hdata⟩ := h.of_ok hrun
  have hpos := List.length_pos_iff.mpr fun hnil : encoding = [] => hne a (hnil ▸ hgrammar)
  rw [hdata, List.length_append]
  omega

section Loop

variable {μ σ : Type} (message : Reader ε μ) (step : σ → μ → Except ε (σ ⊕ α))

/-- Read messages, each of which changes a state, until one of them ends the loop with a result. -/
def loop (progress : Progress message) (s : σ) (c : Connection) : EStateM.Result (Stop ε) Connection α :=
  match _hmessage : message c with
  | .error stop c' => .error stop c'
  | .ok m c' =>
      match step s m with
      | .error e => .error (.raised e) c'
      | .ok (.inr a) => .ok a c'
      | .ok (.inl s') => loop progress s' c'
termination_by c.data.length
decreasing_by exact progress c m c' _hmessage

/-- The encodings of the messages up to the one that ends the loop. -/
inductive Loop (grammar : μ → List UInt8 → Prop) : σ → α → List UInt8 → Prop
  | last {s : σ} {m : μ} {a : α} {encoding : List UInt8} : grammar m encoding → step s m = .ok (.inr a) →
      Loop grammar s a encoding
  | next {s s' : σ} {m : μ} {a : α} {first second : List UInt8} : grammar m first → step s m = .ok (.inl s') →
      Loop grammar s' a second → Loop grammar s a (first ++ second)

variable {message step} {progress : Progress message} {grammar : μ → List UInt8 → Prop}

theorem loop_error {s : σ} {c c' : Connection} {stop : Stop ε} (h : message c = .error stop c') :
    loop message step progress s c = .error stop c' := by
  rw [loop]
  split
  · next h' =>
    rw [h] at h'
    cases h'
    rfl
  · next h' => rw [h] at h'; cases h'

theorem loop_ok {s : σ} {c c' : Connection} {m : μ} (h : message c = .ok m c') :
    loop message step progress s c = match step s m with
      | .error e => .error (.raised e) c'
      | .ok (.inr a) => .ok a c'
      | .ok (.inl s') => loop message step progress s' c' := by
  rw [loop]
  split
  · next h' => rw [h] at h'; cases h'
  · next h' =>
    rw [h] at h'
    cases h'
    rfl

/-- A loop takes the messages that its grammar allows, if neither a message nor a step raises what is wrong. -/
theorem Reads.loop (h : Reads wrong message grammar fun _ => False)
    (hstep : ∀ s m e, step s m = .error e → ¬wrong e) (s : σ) :
    Reads wrong (loop message step progress s) (Loop step grammar s) fun _ => False := by
  refine ⟨fun c a rest => ⟨?_, ?_⟩, fun c => iff_of_false ?_ id, fun c a c' hrun => ?_, fun c c' hrun => ?_⟩
  · rintro ⟨c', hrun, rfl⟩
    induction hn : c.data.length using Nat.strong_induction_on generalizing s c with
    | _ n ih =>
      subst hn
      cases hmessage : message c with
      | error stop c₁ =>
          rw [loop_error hmessage] at hrun
          cases hrun
      | ok m c₁ =>
          obtain ⟨first, hgrammar, hdata⟩ := h.of_ok hmessage
          rw [loop_ok hmessage] at hrun
          split at hrun
          · cases hrun
          · next hlast =>
            cases hrun
            exact ⟨first, .last hgrammar hlast, hdata⟩
          · next hnext =>
            obtain ⟨second, hsecond, hdata'⟩ := ih _ (progress c m c₁ hmessage) _ c₁ hrun rfl
            exact ⟨first ++ second, .next hgrammar hnext hsecond, by rw [hdata, hdata', List.append_assoc]⟩
  · rintro ⟨encoding, hloop, hdata⟩
    induction hloop generalizing c with
    | last hgrammar hlast =>
        obtain ⟨c', hmessage, hrest⟩ := (h.ok_iff c _ rest).mpr ⟨_, hgrammar, hdata⟩
        exact ⟨c', by rw [loop_ok hmessage, hlast], hrest⟩
    | next hgrammar hnext _ ih =>
        rw [List.append_assoc] at hdata
        obtain ⟨c₁, hmessage, hrest⟩ := (h.ok_iff c _ _).mpr ⟨_, hgrammar, hdata⟩
        obtain ⟨c', hrun, hrest'⟩ := ih c₁ hrest
        exact ⟨c', by rw [loop_ok hmessage, hnext]; exact hrun, hrest'⟩
  · rintro ⟨e, c', hwrong, hrun⟩
    induction hn : c.data.length using Nat.strong_induction_on generalizing s c with
    | _ n ih =>
      subst hn
      cases hmessage : message c with
      | error stop c₁ =>
          rw [loop_error hmessage] at hrun
          cases hrun
          exact (h.wrong_iff c).mp ⟨e, _, hwrong, hmessage⟩
      | ok m c₁ =>
          rw [loop_ok hmessage] at hrun
          split at hrun
          · next hraise =>
            cases hrun
            exact hstep _ _ _ hraise hwrong
          · cases hrun
          · exact ih _ (progress c m c₁ hmessage) _ c₁ hrun rfl
  · induction hn : c.data.length using Nat.strong_induction_on generalizing s c with
    | _ n ih =>
      subst hn
      cases hmessage : message c with
      | error stop c₁ =>
          rw [loop_error hmessage] at hrun
          cases hrun
      | ok m c₁ =>
          have hclosed := h.closed_eq c m c₁ hmessage
          rw [loop_ok hmessage] at hrun
          split at hrun
          · cases hrun
          · cases hrun
            exact hclosed
          · exact (ih _ (progress c m c₁ hmessage) _ c₁ hrun rfl).trans hclosed
  · induction hn : c.data.length using Nat.strong_induction_on generalizing s c with
    | _ n ih =>
      subst hn
      cases hmessage : message c with
      | error stop c₁ =>
          rw [loop_error hmessage] at hrun
          cases hrun
          exact h.open_of_waits c _ hmessage
      | ok m c₁ =>
          rw [← h.closed_eq c m c₁ hmessage]
          rw [loop_ok hmessage] at hrun
          split at hrun
          · cases hrun
          · cases hrun
          · exact ih _ (progress c m c₁ hmessage) _ c₁ hrun rfl

end Loop

/-! ## Items at a cursor -/

/-- A fixed number of items, each from where the one before it ends. -/
def itemsAt (item : ℕ → Except ε (α × ℕ)) : ℕ → ℕ → Except ε (List α × ℕ)
  | 0, cursor => .ok ([], cursor)
  | count + 1, cursor => do
      let first ← item cursor
      let others ← itemsAt item count first.2
      return (first.1 :: others.1, others.2)

/-- What an item takes of some content at a cursor. -/
def TakesAt (content : List UInt8) (grammar : α → List UInt8 → Prop) (a : α) (cursor stop : ℕ) : Prop :=
  ∃ encoding, grammar a encoding ∧ encoding <+: content.drop cursor ∧ stop = cursor + encoding.length

/-- Items one after another take the encodings of their values one after another. -/
theorem itemsAt_eq_ok {item : ℕ → Except ε (α × ℕ)} {content : List UInt8} {grammar : α → List UInt8 → Prop}
    (hitem : ∀ cursor a stop, item cursor = .ok (a, stop) ↔ TakesAt content grammar a cursor stop)
    {count cursor stop : ℕ} {values : List α} : itemsAt item count cursor = .ok (values, stop) ↔
      values.length = count ∧ TakesAt content (Sequence grammar) values cursor stop := by
  induction count generalizing cursor values with
  | zero =>
      rw [itemsAt, Except.ok.injEq, Prod.mk.injEq]
      constructor
      · rintro ⟨rfl, rfl⟩
        exact ⟨rfl, [], rfl, List.nil_prefix, rfl⟩
      · rintro ⟨hlength, encoding, hsequence, -, rfl⟩
        obtain rfl := List.length_eq_zero_iff.mp hlength
        obtain rfl := hsequence
        exact ⟨rfl, rfl⟩
  | succ count ih =>
      rw [itemsAt, Imp.except_bind_eq_ok]
      constructor
      · rintro ⟨⟨a, middle⟩, hfirst, h⟩
        obtain ⟨⟨others, stop'⟩, hothers, hret⟩ := Imp.except_bind_eq_ok.mp h
        cases hret
        obtain ⟨first, hgrammar, ⟨rest, hrest⟩, rfl⟩ := (hitem _ _ _).mp hfirst
        obtain ⟨rfl, second, hsequence, hsecond, rfl⟩ := ih.mp hothers
        refine ⟨rfl, first ++ second, ⟨first, second, hgrammar, hsequence, rfl⟩, ?_, ?_⟩
        · rw [← List.drop_drop, ← hrest, List.drop_left] at hsecond
          rw [← hrest]
          exact (List.prefix_append_right_inj first).mpr hsecond
        · rw [List.length_append, Nat.add_assoc]
      · rintro ⟨hlength, _, hsequence, hprefix, rfl⟩
        cases values with
        | nil => cases hlength
        | cons a values =>
            obtain ⟨first, second, hgrammar, hsecond, rfl⟩ := hsequence
            obtain ⟨rest, hrest⟩ := hprefix
            rw [List.append_assoc] at hrest
            refine ⟨(a, cursor + first.length), (hitem _ _ _).mpr ⟨first, hgrammar, ⟨_, hrest⟩, rfl⟩,
              Imp.except_bind_eq_ok.mpr ⟨(values, cursor + (first ++ second).length), ih.mpr ⟨Nat.succ.inj hlength,
                second, hsecond, ?_, ?_⟩, rfl⟩⟩
            · rw [← List.drop_drop, ← hrest, List.drop_left]
              exact List.prefix_append second rest
            · rw [List.length_append, Nat.add_assoc]

/-- Items raise what one of them raises. -/
theorem itemsAt_eq_error {item : ℕ → Except ε (α × ℕ)} {P : ε → Prop} (hitem : ∀ cursor e, item cursor = .error e → P e)
    {count cursor : ℕ} {e : ε} (h : itemsAt item count cursor = .error e) : P e := by
  induction count generalizing cursor with
  | zero => cases h
  | succ count ih =>
      rw [itemsAt] at h
      rcases Imp.except_bind_eq_error.mp h with h | ⟨first, -, h⟩
      · exact hitem cursor e h
      · rcases Imp.except_bind_eq_error.mp h with h | ⟨_, -, h⟩
        · exact ih h
        · cases h

/-! ## Numbers of a fixed width -/

/-- The number that some bytes stand for, the first byte the most significant one. -/
def unsigned (content : List UInt8) : ℕ := content.foldl (fun n b => 256 * n + b.toNat) 0

/-- The number that four bytes stand for in two's complement. -/
def signed (content : List UInt8) : ℤ :=
  if unsigned content < 2 ^ 31 then unsigned content else unsigned content - 2 ^ 32

end Wire

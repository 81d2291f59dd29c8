import StateWeaver.Candidate.CanonicalJson
import StateWeaver.Lib.Calendar
import StateWeaver.Lib.Utf8

/-!
# Command records

The record of a command that was run: its arguments, where it ran, its stage and its times. What is accepted as a
record is small, so the bounds of canonical JSON do not matter for it, and it is the same record with its entries in
order.
-/

namespace StateWeaver.Candidate

open Py (CodePoint Text Tree Literal text PurePosixPath slash dot)

/-- A record that was validated. Its status is `PASS`. -/
structure CommandRecord where
  argv : List Text
  completedAt : Text
  cwd : Text
  exitCode : ℤ
  stage : Text
  startedAt : Text
  deriving DecidableEq

/-! ## Fields -/

def textOf : Tree → Option Text
  | .scalar (.str s) => some s
  | _ => none

def intOf : Tree → Option ℤ
  | .scalar (.int n) => some n
  | _ => none

def itemsOf : Tree → Option (List Tree)
  | .arr items => some items
  | _ => none

/-- The keys of a record. -/
def commandRecordKeys : List Text :=
  ["argv", "completed_at", "cwd", "exit_code", "stage", "started_at", "status"].map text

/-- `exact_keys`. -/
def HasExactKeys (entries : List (Text × Tree)) (keys : List Text) : Prop :=
  (∀ key ∈ entries.map Prod.fst, key ∈ keys) ∧ ∀ key ∈ keys, key ∈ entries.map Prod.fst

instance (entries : List (Text × Tree)) (keys : List Text) : Decidable (HasExactKeys entries keys) :=
  inferInstanceAs (Decidable (_ ∧ _))

/-- The value of a key that is there. -/
def fieldOf (entries : List (Text × Tree)) (key : String) : Tree := (entries.lookup (text key)).getD (.scalar .null)

/-! ## Checks of texts -/

/-- The number that some digits of a text stand for. -/
def numberAt (t : Text) (start width : ℕ) : ℕ :=
  ((t.drop start).take width).foldl (fun n c => 10 * n + (c.val - 48)) 0

def daysInMonth (year month : ℕ) : ℕ :=
  if month = 2 then (if Py.isLeapYear year then 29 else 28) else if month ∈ [4, 6, 9, 11] then 30 else 31

/-- Whether a text is a time of the form `%Y-%m-%dT%H:%M:%SZ` in ASCII, as it is written again. -/
def isUtcTimestamp (t : Text) : Bool :=
  t.length = 20 && (t.zip (text "dddd-dd-ddTdd:dd:ddZ")).all (fun p => if p.2 = 100 then isDigit p.1 else p.1 = p.2) &&
    1 ≤ numberAt t 0 4 && (1 ≤ numberAt t 5 2 && numberAt t 5 2 ≤ 12) &&
    (1 ≤ numberAt t 8 2 && numberAt t 8 2 ≤ daysInMonth (numberAt t 0 4) (numberAt t 5 2)) &&
    numberAt t 11 2 ≤ 23 && numberAt t 14 2 ≤ 59 && numberAt t 17 2 ≤ 59

def isStageCharacter (c : CodePoint) : Bool := isDigit c || 97 ≤ c.val && c.val ≤ 122

/-- `_STAGE_RE.fullmatch`. -/
def isStage (t : Text) : Bool :=
  t.head?.any isStageCharacter && t.all (fun c => isStageCharacter c || c.val = 45) && t.length ≤ 80

/-- `_is_canonical_absolute_path`. -/
def isCanonicalAbsolutePath (value : Text) : Bool :=
  if 92 ∈ value ∨ 0 ∈ value ∨ [slash, slash] <:+: value then false
  else if value.head? = some slash then
    let path := PurePosixPath.parse value
    path.str = value && path.parts.all fun part => part ≠ [dot] ∧ part ≠ [dot, dot]
  else
    match value with
    | drive :: 58 :: 47 :: rest =>
        (65 ≤ drive.val && drive.val ≤ 90) && (rest.splitOn slash).dropLast.all (fun part => part ≠ []) &&
          (rest.splitOn slash).all fun part => part ≠ [dot] ∧ part ≠ [dot, dot]
    | _ => false

/-! ## Records -/

/-- `validate_utc_timestamp`. -/
def validateUtcTimestamp (code : String) (value : Tree) : Except Failure Text :=
  orRaise ((textOf value).filter isUtcTimestamp) (.candidate code)

/-- The loop over the arguments, with their bytes so far. -/
def validateArguments (aggregate : ℕ) : List Tree → Except Failure (List Text)
  | [] => .ok []
  | item :: items => do
      let value ← orRaise ((textOf item).filter fun s => s ≠ [] ∧ 0 ∉ s) (.candidate "command-record-invalid")
      let encoded ← orRaise (Py.utf8? value) .unicodeEncode
      Imp.require (aggregate + encoded.length ≤ 16 * 1024) (.candidate "command-record-invalid")
      let others ← validateArguments (aggregate + encoded.length) items
      return value :: others

/-- `validate_command_record`, once the keys are those of a record. -/
def validateFields (field : String → Tree) : Except Failure CommandRecord := do
  let argvValues ← orRaise (itemsOf (field "argv")) (.candidate "command-record-invalid")
  Imp.require (0 < argvValues.length ∧ argvValues.length ≤ 256) (.candidate "command-record-invalid")
  let argv ← validateArguments 0 argvValues
  let cwd ← orRaise ((textOf (field "cwd")).filter fun cwd =>
    isCanonicalAbsolutePath cwd ∧ 0 ∉ cwd ∧ cwd.length ≤ 4096) (.candidate "command-record-invalid")
  let stage ← orRaise ((textOf (field "stage")).filter isStage) (.candidate "command-record-invalid")
  let exitCode ← orRaise ((intOf (field "exit_code")).filter (· = 0)) (.candidate "command-record-invalid")
  Imp.require (textOf (field "status") = some (text "PASS")) (.candidate "command-record-invalid")
  let startedAt ← validateUtcTimestamp "command-record-invalid" (field "started_at")
  let completedAt ← validateUtcTimestamp "command-record-invalid" (field "completed_at")
  Imp.require (startedAt ≤ completedAt) (.candidate "command-record-invalid")
  return { argv, completedAt, cwd, exitCode, stage, startedAt }

/-- `validate_command_record`. -/
def validateCommandRecord : Tree → Except Failure CommandRecord
  | .obj entries => do
      Imp.require (HasExactKeys entries commandRecordKeys) (.candidate "command-record-invalid")
      validateFields (fieldOf entries)
  | _ => .error (.candidate "command-record-invalid")

/-! ## The order of entries does not matter -/

theorem textOf_sort (v : Tree) : textOf v.sort = textOf v := by
  cases v with
  | scalar s => rw [Json.sort]
  | arr items => rw [Json.sort]; rfl
  | obj entries => rw [Json.sort]; rfl

theorem intOf_sort (v : Tree) : intOf v.sort = intOf v := by
  cases v with
  | scalar s => rw [Json.sort]
  | arr items => rw [Json.sort]; rfl
  | obj entries => rw [Json.sort]; rfl

theorem itemsOf_sort (v : Tree) : itemsOf v.sort = (itemsOf v).map fun items => items.map Json.sort := by
  cases v with
  | scalar s => rw [Json.sort]; rfl
  | arr items => rw [Json.sort, Json.sortItems_eq]; rfl
  | obj entries => rw [Json.sort]; rfl

theorem validateArguments_sort (aggregate : ℕ) (items : List Tree) :
    validateArguments aggregate (items.map Json.sort) = validateArguments aggregate items := by
  induction items generalizing aggregate with
  | nil => rfl
  | cons item items ih =>
      rw [List.map_cons, validateArguments, validateArguments, textOf_sort]
      simp only [ih]

theorem validateFields_sort (field : String → Tree) :
    validateFields (fun key => (field key).sort) = validateFields field := by
  rw [validateFields, validateFields]
  simp only [textOf_sort, intOf_sort, itemsOf_sort, validateUtcTimestamp]
  cases itemsOf (field "argv") with
  | none => rfl
  | some items =>
      simp only [Option.map_some, orRaise, bind, Except.bind, List.length_map, validateArguments_sort]

theorem hasExactKeys_iff_perm {entries : List (Text × Tree)} (h : (entries.map Prod.fst).Nodup) :
    HasExactKeys entries commandRecordKeys ↔ (entries.map Prod.fst).Perm commandRecordKeys := by
  rw [List.perm_ext_iff_of_nodup h (by decide), HasExactKeys]
  exact ⟨fun h key => ⟨h.1 key, h.2 key⟩, fun h => ⟨fun key => (h key).mp, fun key => (h key).mpr⟩⟩

theorem nodup_of_distinct {entries : List (Text × Tree)} (h : (Json.obj entries).Distinct) :
    (entries.map Prod.fst).Nodup := by
  cases h with
  | obj hkeys _ => exact hkeys

/-- An entry is found under its key. -/
theorem fieldOf_of_mem {entries : List (Text × Tree)} (h : (entries.map Prod.fst).Nodup) {key : String} {v : Tree}
    (hmem : (text key, v) ∈ entries) : fieldOf entries key = v := by
  obtain ⟨before, after, rfl⟩ := List.append_of_mem hmem
  rw [List.map_append, List.map_cons, List.nodup_append] at h
  rw [fieldOf, List.lookup_eq_some_iff.mpr ⟨before, after, rfl, fun p hp => ?_⟩, Option.getD_some]
  rw [bne_iff_ne, ne_comm]
  exact h.2.2 p.1 (List.mem_map_of_mem hp) (text key) List.mem_cons_self

theorem fieldOf_of_not_mem {entries : List (Text × Tree)} {key : String} (h : text key ∉ entries.map Prod.fst) :
    fieldOf entries key = .scalar .null := by
  rw [fieldOf, List.lookup_eq_none_iff.mpr fun p hp => ?_, Option.getD_none]
  rw [bne_iff_ne]
  rintro heq
  exact h (heq ▸ List.mem_map_of_mem hp)

theorem validateCommandRecord_sort {v : Tree} (hv : v.Distinct) :
    validateCommandRecord v.sort = validateCommandRecord v := by
  cases v with
  | scalar s => rw [Json.sort]
  | arr items => rw [Json.sort]; rfl
  | obj entries =>
      have hnodup := nodup_of_distinct hv
      have hsorted := (Json.distinct_sort_iff _).mpr hv
      rw [Json.sort] at hsorted ⊢
      have hperm := List.perm_insertionSort (fun e e' => e.1 ≤ e'.1) (Json.sortEntries entries)
      have hmem : ∀ key, key ∈ ((Json.sortEntries entries).insertionSort fun e e' => e.1 ≤ e'.1).map Prod.fst ↔
          key ∈ entries.map Prod.fst := fun key => by
        rw [(hperm.map Prod.fst).mem_iff, Json.map_fst_sortEntries]
      have hfield : fieldOf ((Json.sortEntries entries).insertionSort fun e e' => e.1 ≤ e'.1) =
          fun key => (fieldOf entries key).sort := by
        funext key
        by_cases hkey : text key ∈ entries.map Prod.fst
        · obtain ⟨e, he, heq⟩ := List.mem_map.mp hkey
          have hentry : (text key, e.2) ∈ entries := heq ▸ he
          rw [fieldOf_of_mem hnodup hentry]
          refine fieldOf_of_mem (nodup_of_distinct hsorted) (hperm.mem_iff.mpr ?_)
          rw [Json.sortEntries_eq]
          exact List.mem_map_of_mem hentry
        · rw [fieldOf_of_not_mem hkey, fieldOf_of_not_mem ((hmem _).not.mpr hkey), Json.sort]
      have hkeys : HasExactKeys ((Json.sortEntries entries).insertionSort fun e e' => e.1 ≤ e'.1) commandRecordKeys ↔
          HasExactKeys entries commandRecordKeys := by
        simp only [HasExactKeys, hmem]
      rw [validateCommandRecord, validateCommandRecord, hfield, validateFields_sort]
      simp only [hkeys]

/-! ## A record is small -/

/-- What the value of a field of a record is: a short text, zero, or a short list of short texts. -/
inductive IsSmallField : Tree → Prop
  | text {s : Text} : s.length ≤ 16384 → IsSmallField (.scalar (.str s))
  | zero : IsSmallField (.scalar (.int 0))
  | texts {items : List Tree} : items.length ≤ 256 →
      (∀ item ∈ items, ∃ s, item = .scalar (.str s) ∧ s.length ≤ 16384) → IsSmallField (.arr items)

theorem textOf_eq_some {v : Tree} {s : Text} (h : textOf v = some s) : v = .scalar (.str s) := by
  unfold textOf at h
  split at h <;> cases h
  rfl

theorem intOf_eq_some {v : Tree} {n : ℤ} (h : intOf v = some n) : v = .scalar (.int n) := by
  unfold intOf at h
  split at h <;> cases h
  rfl

theorem itemsOf_eq_some {v : Tree} {items : List Tree} (h : itemsOf v = some items) : v = .arr items := by
  unfold itemsOf at h
  split at h <;> cases h
  rfl

theorem length_le_utf8 (s : Text) : s.length ≤ (Py.utf8 s).length := by
  induction s with
  | nil => exact Nat.le_refl _
  | cons c s ih =>
      have hpos := List.length_pos_iff.mpr (Py.utf8EncodeChar_ne_nil c.toChar)
      rw [Py.utf8, List.flatMap_cons, List.length_append, List.length_cons]
      rw [Py.utf8] at ih
      omega

theorem of_validateArguments {aggregate : ℕ} {items : List Tree} {argv : List Text}
    (h : validateArguments aggregate items = .ok argv) :
    ∀ item ∈ items, ∃ s, item = .scalar (.str s) ∧ s.length ≤ 16384 := by
  induction items generalizing aggregate argv with
  | nil => nofun
  | cons item items ih =>
      rw [validateArguments] at h
      obtain ⟨value, hvalue, h⟩ := Imp.except_bind_eq_ok.mp h
      obtain ⟨encoded, hencoded, h⟩ := Imp.except_bind_eq_ok.mp h
      obtain ⟨haggregate, h⟩ := Imp.check_bind_eq_ok.mp h
      obtain ⟨others, hothers, -⟩ := Imp.except_bind_eq_ok.mp h
      obtain ⟨htext, -⟩ := Option.filter_eq_some_iff.mp (orRaise_eq_ok.mp hvalue)
      obtain ⟨-, rfl⟩ := Py.utf8?_eq_some.mp (orRaise_eq_ok.mp hencoded)
      have hlength := length_le_utf8 value
      rw [Imp.require_eq_ok] at haggregate
      exact List.forall_mem_cons.mpr ⟨⟨value, textOf_eq_some htext, by omega⟩, ih hothers⟩

theorem isSmallField_of_filter {v : Tree} {p : Text → Bool} {s : Text} {failure : Failure}
    (h : orRaise ((textOf v).filter p) failure = .ok s) (hp : ∀ s, p s = true → s.length ≤ 16384) : IsSmallField v := by
  obtain ⟨htext, hs⟩ := Option.filter_eq_some_iff.mp (orRaise_eq_ok.mp h)
  rw [textOf_eq_some htext]
  exact .text (hp s hs)

theorem length_of_isUtcTimestamp (s : Text) (h : isUtcTimestamp s = true) : s.length ≤ 16384 := by
  simp only [isUtcTimestamp, Bool.and_eq_true, decide_eq_true_iff] at h
  omega

/-- The fields of a record are small. -/
theorem isSmallField_of_validateFields {field : String → Tree} {record : CommandRecord}
    (h : validateFields field = .ok record) :
    ∀ key ∈ ["argv", "completed_at", "cwd", "exit_code", "stage", "started_at", "status"], IsSmallField (field key) := by
  rw [validateFields] at h
  obtain ⟨items, hitems, h⟩ := Imp.except_bind_eq_ok.mp h
  obtain ⟨hlength, h⟩ := Imp.check_bind_eq_ok.mp h
  obtain ⟨argv, hargv, h⟩ := Imp.except_bind_eq_ok.mp h
  obtain ⟨cwd, hcwd, h⟩ := Imp.except_bind_eq_ok.mp h
  obtain ⟨stage, hstage, h⟩ := Imp.except_bind_eq_ok.mp h
  obtain ⟨exitCode, hexit, h⟩ := Imp.except_bind_eq_ok.mp h
  obtain ⟨hstatus, h⟩ := Imp.check_bind_eq_ok.mp h
  obtain ⟨startedAt, hstarted, h⟩ := Imp.except_bind_eq_ok.mp h
  obtain ⟨completedAt, hcompleted, -⟩ := Imp.except_bind_eq_ok.mp h
  rw [Imp.require_eq_ok] at hlength hstatus
  have hsmallArgv : IsSmallField (field "argv") := by
    rw [itemsOf_eq_some (orRaise_eq_ok.mp hitems)]
    exact .texts hlength.2 (of_validateArguments hargv)
  have hsmallExit : IsSmallField (field "exit_code") := by
    obtain ⟨hint, hzero⟩ := Option.filter_eq_some_iff.mp (orRaise_eq_ok.mp hexit)
    rw [intOf_eq_some hint, of_decide_eq_true hzero]
    exact .zero
  have hsmallCwd : IsSmallField (field "cwd") := isSmallField_of_filter hcwd fun s hs => by
    have hbound := (of_decide_eq_true hs).2.2
    omega
  have hsmallStage : IsSmallField (field "stage") := isSmallField_of_filter hstage fun s hs => by
    simp only [isStage, Bool.and_eq_true, decide_eq_true_iff] at hs
    omega
  have hsmallStatus : IsSmallField (field "status") := by
    rw [textOf_eq_some hstatus]
    exact .text (by decide)
  simp only [List.forall_mem_cons]
  exact ⟨hsmallArgv, isSmallField_of_filter hcompleted length_of_isUtcTimestamp, hsmallCwd, hsmallExit, hsmallStage,
    isSmallField_of_filter hstarted length_of_isUtcTimestamp, hsmallStatus, nofun⟩

/-- An accepted value is an object with the keys of a record and small fields. -/
theorem of_validateCommandRecord {v : Tree} (hv : v.Distinct) {record : CommandRecord}
    (h : validateCommandRecord v = .ok record) : ∃ entries, v = .obj entries ∧
      (entries.map Prod.fst).Perm commandRecordKeys ∧ ∀ e ∈ entries, IsSmallField e.2 := by
  cases v with
  | scalar s => cases h
  | arr items => cases h
  | obj entries =>
      rw [validateCommandRecord] at h
      obtain ⟨hkeys, h⟩ := Imp.check_bind_eq_ok.mp h
      rw [Imp.require_eq_ok] at hkeys
      have hnodup := nodup_of_distinct hv
      refine ⟨entries, rfl, (hasExactKeys_iff_perm hnodup).mp hkeys, fun e he => ?_⟩
      obtain ⟨name, hname, heq⟩ := List.mem_map.mp (hkeys.1 e.1 (List.mem_map_of_mem he))
      have hfield := fieldOf_of_mem hnodup (heq ▸ he : (text name, e.2) ∈ entries)
      exact hfield ▸ isSmallField_of_validateFields h name hname

theorem length_escape_le (c : Char) : (Py.charBytes (Py.escape c)).length ≤ 6 := by
  rw [Py.escape]
  split_ifs
  any_goals decide
  · have hdigit : ∀ n < 16, (String.utf8EncodeChar (Nat.digitChar n)).length = 1 := by decide
    have hhigh := hdigit (c.toNat / 16) (by omega)
    have hlow := hdigit (c.toNat % 16) (Nat.mod_lt _ (by decide))
    simp only [Py.charBytes_cons, List.length_append, hhigh, hlow, Py.charBytes_nil, List.length_nil]
    decide
  · rw [Py.charBytes_cons, List.length_append, Py.charBytes_nil, List.length_nil, String.length_utf8EncodeChar]
    have hle := c.utf8Size_le_four
    omega

theorem length_textBytes_le (s : Text) : (textBytes s).length ≤ 6 * s.length := by
  rw [textBytes]
  induction s with
  | nil => exact Nat.le_refl _
  | cons c s ih =>
      have hle := length_escape_le c.toChar
      rw [List.flatMap_cons, Py.charBytes_append, List.length_append, List.length_cons]
      omega

namespace IsSmallField

variable {v : Tree}

theorem nested (h : IsSmallField v) (depth : ℕ) : Json.Nested (depth + 1) v := by
  cases h with
  | text => exact .scalar _
  | zero => exact .scalar _
  | texts _ hitems =>
      refine .arr fun item hitem => ?_
      obtain ⟨s, rfl, -⟩ := hitems item hitem
      exact .scalar _

theorem nodes_le (h : IsSmallField v) : v.nodes ≤ 257 := by
  cases h with
  | text => exact (by decide : 1 ≤ 257)
  | zero => exact (by decide : 1 ≤ 257)
  | @texts items hlength hitems =>
      have hnodes : items.map Json.nodes = items.map fun _ => 1 := List.map_congr_left fun item hitem => by
        obtain ⟨s, rfl, -⟩ := hitems item hitem
        rfl
      rw [Json.nodes, Json.itemsNodes_eq, hnodes, List.map_const', List.sum_replicate_nat]
      omega

theorem sizesFit (h : IsSmallField v) (maxBytes : ℕ) : SizesFit { maxBytes } v := by
  have htext : ∀ s : Text, s.length ≤ 16384 → SizesFit { maxBytes } (.scalar (.str s)) := fun s hs => by
    refine ⟨List.forall_mem_singleton.mpr ?_, nofun⟩
    have hle := length_textBytes_le s
    change (textBytes s).length ≤ 2 * 1024 * 1024
    omega
  cases h with
  | text hs => exact htext _ hs
  | zero => exact ⟨List.forall_mem_singleton.mpr (by decide : 1 ≤ 1024), nofun⟩
  | texts _ hitems =>
      refine sizesFit_arr.mpr fun item hitem => ?_
      obtain ⟨s, rfl, hs⟩ := hitems item hitem
      exact htext s hs

theorem not_float (h : IsSmallField v) (x : Float) : Literal.float x ∉ v.scalars := by
  cases h with
  | text => exact fun hmem => nomatch List.mem_singleton.mp hmem
  | zero => exact fun hmem => nomatch List.mem_singleton.mp hmem
  | texts _ hitems =>
      intro hmem
      obtain ⟨item, hitem, hscalar⟩ := Json.mem_itemsScalars.mp hmem
      obtain ⟨s, rfl, -⟩ := hitems item hitem
      exact nomatch List.mem_singleton.mp hscalar

end IsSmallField

/-- A record has few values and keys. -/
theorem entriesNodes_le {entries : List (Text × Tree)} (h : ∀ e ∈ entries, IsSmallField e.2) :
    Json.entriesNodes entries ≤ 258 * entries.length := by
  induction entries with
  | nil => exact Nat.le_refl _
  | cons e entries ih =>
      obtain ⟨he, hentries⟩ := List.forall_mem_cons.mp h
      have hle := ih hentries
      have hnodes := he.nodes_le
      rw [Json.entriesNodes, List.length_cons]
      omega

/-- What is accepted as a record is a value of JSON within the bounds. -/
theorem withinLimits_of_validateCommandRecord {v : Tree} (hv : v.Distinct) {record : CommandRecord}
    (h : validateCommandRecord v = .ok record) (maxBytes : ℕ) : IsJson v ∧ WithinLimits { maxBytes } v := by
  obtain ⟨entries, rfl, hperm, hsmall⟩ := of_validateCommandRecord hv h
  have hlength : entries.length = 7 := by
    have hlength := hperm.length_eq
    rwa [List.length_map] at hlength
  have hkey : ∀ e ∈ entries, (textBytes e.1).length ≤ 4 * 1024 := fun e he => by
    have hshort : ∀ key ∈ commandRecordKeys, key.length ≤ 12 := by decide
    have hle := length_textBytes_le e.1
    have hlength := hshort e.1 (hperm.mem_iff.mp (List.mem_map_of_mem he))
    omega
  refine ⟨⟨hv, fun x hx => ?_⟩, .obj fun e he => (hsmall e he).nested 62, ?_,
    sizesFit_obj.mpr fun e he => ⟨hkey e he, (hsmall e he).sizesFit maxBytes⟩⟩
  · obtain ⟨e, he, hscalar⟩ := Json.mem_entriesScalars.mp hx
    exact absurd hscalar ((hsmall e he).not_float x)
  · have hle := entriesNodes_le hsmall
    rw [Json.nodes]
    change _ ≤ 200000
    omega

end StateWeaver.Candidate

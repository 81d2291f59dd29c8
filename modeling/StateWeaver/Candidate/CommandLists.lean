import StateWeaver.Candidate.CommandRecords
import StateWeaver.Lib.ByteLines

/-!
# Lists of command records

A list of records is read in two ways: the builder reads one canonical line after the other, and the verifier reads the
array of a receipt. Both ask for distinct stages. Only the builder asks that a record does not start before its
predecessor completed.
-/

namespace StateWeaver.Candidate

open Py (Text Tree Literal text PurePosixPath slash charBytes)

/-! ## Lines -/

/-- A failure of a record is one of the list. -/
def listFailure : Failure → Failure
  | .candidate _ => .candidate "command-records-invalid"
  | failure => failure

/-- One line of `load_command_records`. -/
def loadLine (line : List UInt8) : Except Failure CommandRecord := do
  let parsed ← parseCanonicalJson "command-records-invalid" (64 * 1024) line
  (validateCommandRecord parsed).mapError listFailure

/-- The loop of `load_command_records`, after records with some stages. -/
def loadLines (stages : List Text) (previousCompleted : Option Text) :
    List (List UInt8) → Except Failure (List CommandRecord)
  | [] => .ok []
  | line :: lines => do
      let record ← loadLine line
      Imp.require (record.stage ∉ stages) (.candidate "command-records-invalid")
      Imp.require (∀ completed ∈ previousCompleted, completed ≤ record.startedAt) (.candidate "command-records-invalid")
      let others ← loadLines (record.stage :: stages) (some record.completedAt) lines
      return record :: others

/-- `load_command_records`. -/
def loadCommandRecords (content : List UInt8) : Except Failure (List CommandRecord) := do
  Imp.require (content ≠ [] ∧ content.length ≤ 1024 * 1024) (.candidate "command-records-invalid")
  Imp.require ((0 < (Py.splitLinesKeepEnds content).length ∧ (Py.splitLinesKeepEnds content).length ≤ 256) ∧
    ∀ line ∈ Py.splitLinesKeepEnds content, line.getLast? = some 10) (.candidate "command-records-invalid")
  loadLines [] none (Py.splitLinesKeepEnds content)

/-! ## Arrays -/

/-- `validate_command_records`. -/
def validateCommandRecords : Tree → Except Failure (List CommandRecord)
  | .arr values => do
      Imp.require (0 < values.length ∧ values.length ≤ 256) (.candidate "command-records-invalid")
      let records ← values.mapM validateCommandRecord
      Imp.require (records.map CommandRecord.stage).Nodup (.candidate "command-records-invalid")
      return records
  | _ => .error (.candidate "command-records-invalid")

/-- `command_records_are_within`. -/
def commandRecordsAreWithin (records : List CommandRecord) (startedAt completedAt : Text) : Bool :=
  records.all fun record => startedAt ≤ record.startedAt ∧ record.completedAt ≤ completedAt

/-! ## Commands of a build -/

def buildCommandStages : List Text :=
  ["compare-python-distributions", "compare-web-archives", "compare-vendored-runtime", "verify-foundation-proof",
    "verify-source-worktree-clean"].map text

/-- `path.parent`. -/
def parent (path : PurePosixPath) : PurePosixPath := { path with tail := path.tail.dropLast }

/-- `_require_executable`, for the names that its pattern matches. -/
def isExecutable (names : List String) (executable : Text) : Bool :=
  isCanonicalAbsolutePath executable && names.any fun name => (PurePosixPath.parse executable).name = text name

/-- The names that `python(?:3(?:\.13)?)?` matches. -/
def pythonNames : List String := ["python", "python3", "python3.13"]

/-- A record that compares two paths, with the layout that they have. -/
def isComparison (correctLayout : Text → Text → Bool) : List Text → Bool
  | [executable, dashM, module, left, right] =>
      isExecutable pythonNames executable && [dashM, module] = [text "-m", text "tools.candidate.compare"] &&
        (isCanonicalAbsolutePath left && isCanonicalAbsolutePath right) && (left ≠ right && correctLayout left right)
  | _ => false

/-- A record that verifies the foundation evidence of a commit. -/
def isProof (sourceSha : Text) : List Text → Bool
  | [executable, foundation, verb, evidence, option, sha] =>
      isExecutable ["stateweaver"] executable && [foundation, verb] = [text "foundation", text "verify-evidence"] &&
        [option, sha] = [text "--repository-marker", sourceSha] &&
        (parent (PurePosixPath.parse executable)).name = text "bin" &&
        (text "proof-env-").isPrefixOf (parent (parent (PurePosixPath.parse executable))).name &&
        isCanonicalAbsolutePath evidence
  | _ => false

/-- The arguments of the record that checks the worktree. -/
def expectedClean (pythonExecutable repositoryRoot : Text) : List Text :=
  [pythonExecutable, text "-m", text "tools.candidate.git_clean", text "--repository-root", repositoryRoot,
    text "--allow-untracked", repositoryRoot ++ text "/artifacts/acceptance", text "--allow-untracked",
    repositoryRoot ++ text "/candidate"]

/-- What `validate_build_command_policy` checks of the records. -/
def followsBuildPolicy (sourceSha : Text) : List CommandRecord → Bool
  | [dist, web, vendor, proof, clean] =>
      let records := [dist, web, vendor, proof, clean]
      records.map CommandRecord.stage = buildCommandStages && records.all (fun record => record.cwd = dist.cwd) &&
        isCanonicalAbsolutePath dist.cwd &&
        isComparison (fun left right => (text "/dist").isSuffixOf left && (text "/dist").isSuffixOf right) dist.argv &&
        isComparison (fun left right => (text "/web-artifact").isSuffixOf left && (text "/web-artifact").isSuffixOf right)
          web.argv &&
        isComparison (fun left right => (text "vendor-a-").isPrefixOf (PurePosixPath.parse left).name &&
          (text "vendor-b-").isPrefixOf (PurePosixPath.parse right).name) vendor.argv &&
        (web.argv.head? = dist.argv.head? && vendor.argv.head? = dist.argv.head?) && isProof sourceSha proof.argv &&
        (clean.argv.head?.any (isExecutable pythonNames) && clean.argv = expectedClean (dist.argv.headD []) dist.cwd)
  | _ => false

/-- `validate_build_command_policy`. -/
def validateBuildCommandPolicy (records : List CommandRecord) (sourceSha : Text) : Except Failure Unit :=
  Imp.require (followsBuildPolicy sourceSha records) (.candidate "build-command-policy-invalid")

/-- `require_mapping`. -/
def requireMapping (code : String) : Tree → Except Failure (List (Text × Tree))
  | .obj entries => .ok entries
  | _ => .error (.candidate code)

/-- What `_verify_receipt` checks of the commands of a receipt, for its times, its entry `execution` and its commit. -/
def verifyReceiptCommands (startedAt evidenceCutoffAt execution : Tree) (sourceSha : Text) :
    Except Failure (List CommandRecord) := do
  let startedAt ← validateUtcTimestamp "candidate-receipt-timestamp-invalid" startedAt
  let evidenceCutoffAt ← validateUtcTimestamp "candidate-receipt-timestamp-invalid" evidenceCutoffAt
  Imp.require (startedAt ≤ evidenceCutoffAt) (.candidate "candidate-receipt-timestamp-invalid")
  let entries ← requireMapping "candidate-receipt-workflow-invalid" execution
  Imp.require (HasExactKeys entries [text "commands"]) (.candidate "candidate-receipt-workflow-invalid")
  let commands ← validateCommandRecords (fieldOf entries "commands")
  Imp.require (commandRecordsAreWithin commands startedAt evidenceCutoffAt) (.candidate "candidate-receipt-workflow-invalid")
  validateBuildCommandPolicy commands sourceSha
  return commands

/-! ## Records in sequence -/

/-- Whether no record starts before its predecessor completed. -/
def RunsInSequence (records : List CommandRecord) : Prop :=
  records.IsChain fun record next => record.completedAt ≤ next.startedAt

instance (records : List CommandRecord) : Decidable (RunsInSequence records) :=
  inferInstanceAs (Decidable (List.IsChain _ _))

/-- The text of a field of a value. -/
def fieldText (key : String) : Tree → Option Text
  | .obj entries => textOf (fieldOf entries key)
  | _ => none

/-- Whether no value starts before its predecessor completed. -/
def StartInSequence (values : List Tree) : Prop :=
  values.IsChain fun v next =>
    ∀ completed ∈ fieldText "completed_at" v, ∀ started ∈ fieldText "started_at" next, completed ≤ started

/-- Whether values are records, at most 256, of distinct stages. -/
structure AreDistinctCommands (values : List Tree) : Prop where
  length_pos : 0 < values.length
  length_le : values.length ≤ 256
  valid : ∀ v ∈ values, ∃ record, validateCommandRecord v = .ok record
  stages : (values.map (fieldText "stage")).Nodup

/-! ## What a record says -/

theorem fieldText_of_validateCommandRecord {v : Tree} {record : CommandRecord}
    (h : validateCommandRecord v = .ok record) : fieldText "stage" v = some record.stage ∧
      fieldText "started_at" v = some record.startedAt ∧ fieldText "completed_at" v = some record.completedAt := by
  cases v with
  | scalar s => cases h
  | arr items => cases h
  | obj entries =>
      rw [validateCommandRecord] at h
      obtain ⟨-, h⟩ := Imp.check_bind_eq_ok.mp h
      rw [validateFields] at h
      obtain ⟨items, -, h⟩ := Imp.except_bind_eq_ok.mp h
      obtain ⟨-, h⟩ := Imp.check_bind_eq_ok.mp h
      obtain ⟨argv, -, h⟩ := Imp.except_bind_eq_ok.mp h
      obtain ⟨cwd, -, h⟩ := Imp.except_bind_eq_ok.mp h
      obtain ⟨stage, hstage, h⟩ := Imp.except_bind_eq_ok.mp h
      obtain ⟨exitCode, -, h⟩ := Imp.except_bind_eq_ok.mp h
      obtain ⟨-, h⟩ := Imp.check_bind_eq_ok.mp h
      obtain ⟨startedAt, hstarted, h⟩ := Imp.except_bind_eq_ok.mp h
      obtain ⟨completedAt, hcompleted, h⟩ := Imp.except_bind_eq_ok.mp h
      obtain ⟨-, hret⟩ := Imp.check_bind_eq_ok.mp h
      cases hret
      exact ⟨(Option.filter_eq_some_iff.mp (orRaise_eq_ok.mp hstage)).1,
        (Option.filter_eq_some_iff.mp (orRaise_eq_ok.mp hstarted)).1,
        (Option.filter_eq_some_iff.mp (orRaise_eq_ok.mp hcompleted)).1⟩

/-- The records that values are validated to, one for each. -/
def AreRecords (values : List Tree) (records : List CommandRecord) : Prop :=
  List.Forall₂ (fun v record => validateCommandRecord v = .ok record) values records

section AreRecords

variable {values : List Tree} {records : List CommandRecord} (h : AreRecords values records)

include h

theorem map_eq_of_areRecords {α : Type} {f : Tree → α} {g : CommandRecord → α}
    (hfg : ∀ v record, validateCommandRecord v = .ok record → f v = g record) : values.map f = records.map g := by
  induction h with
  | nil => rfl
  | cons hhead _ ih => rw [List.map_cons, List.map_cons, hfg _ _ hhead, ih]

theorem nodup_stages_iff : (values.map (fieldText "stage")).Nodup ↔ (records.map CommandRecord.stage).Nodup := by
  rw [map_eq_of_areRecords h (g := fun record => some record.stage)
    fun v record hrecord => (fieldText_of_validateCommandRecord hrecord).1]
  rw [← List.nodup_map_iff (Option.some_injective Text), List.map_map]
  rfl

theorem startInSequence_iff : StartInSequence values ↔ RunsInSequence records := by
  have htimes := map_eq_of_areRecords h (f := fun v => (fieldText "completed_at" v, fieldText "started_at" v))
    (g := fun record => (some record.completedAt, some record.startedAt)) fun v record hrecord => by
      obtain ⟨-, hstarted, hcompleted⟩ := fieldText_of_validateCommandRecord hrecord
      rw [hstarted, hcompleted]
  have hvalues : StartInSequence values ↔
      (values.map fun v => (fieldText "completed_at" v, fieldText "started_at" v)).IsChain fun p q =>
        ∀ completed ∈ p.1, ∀ started ∈ q.2, completed ≤ started := by
    rw [List.isChain_map, StartInSequence]
  rw [hvalues, htimes, List.isChain_map, RunsInSequence]
  refine ⟨List.IsChain.imp fun record next hle => hle _ rfl _ rfl,
    List.IsChain.imp fun record next hle completed hcompleted started hstarted => ?_⟩
  cases hcompleted
  cases hstarted
  exact hle

end AreRecords

theorem mapM_validateCommandRecord_eq_ok {values : List Tree} {records : List CommandRecord} :
    values.mapM validateCommandRecord = .ok records ↔ AreRecords values records := by
  refine ⟨Imp.forall₂_of_mapM, fun h => ?_⟩
  induction h with
  | nil => rfl
  | cons hhead _ ih =>
      rw [List.mapM_cons, hhead, ih]
      rfl

/-- What the verifier asks of the records of a list. -/
theorem validateCommandRecords_eq_ok {values : List Tree} {records : List CommandRecord} :
    validateCommandRecords (.arr values) = .ok records ↔ (0 < values.length ∧ values.length ≤ 256) ∧
      AreRecords values records ∧ (records.map CommandRecord.stage).Nodup := by
  rw [validateCommandRecords, Imp.check_bind_eq_ok, Imp.require_eq_ok, Imp.except_bind_eq_ok]
  simp only [mapM_validateCommandRecord_eq_ok, Imp.check_bind_eq_ok, Imp.require_eq_ok]
  refine and_congr_right fun _ => ⟨fun ⟨records', hrecords, hstages, hret⟩ => ?_,
    fun ⟨hrecords, hstages⟩ => ⟨records, hrecords, hstages, rfl⟩⟩
  cases hret
  exact ⟨hrecords, hstages⟩

/-- The verifier accepts the lists of records of distinct stages. -/
theorem areDistinctCommands_iff {values : List Tree} :
    AreDistinctCommands values ↔ ∃ records, validateCommandRecords (.arr values) = .ok records := by
  simp only [validateCommandRecords_eq_ok]
  constructor
  · intro h
    obtain ⟨records, hrecords⟩ : ∃ records, AreRecords values records := by
      have hvalid := h.valid
      clear h
      induction values with
      | nil => exact ⟨[], .nil⟩
      | cons v values ih =>
          obtain ⟨⟨record, hrecord⟩, hrest⟩ := List.forall_mem_cons.mp hvalid
          obtain ⟨records, hrecords⟩ := ih hrest
          exact ⟨record :: records, .cons hrecord hrecords⟩
    exact ⟨records, ⟨h.length_pos, h.length_le⟩, hrecords, (nodup_stages_iff hrecords).mp h.stages⟩
  · rintro ⟨records, ⟨hpos, hle⟩, hrecords, hstages⟩
    refine ⟨hpos, hle, fun v hv => ?_, (nodup_stages_iff hrecords).mpr hstages⟩
    obtain ⟨i, hi, rfl⟩ := List.mem_iff_getElem.mp hv
    exact ⟨_, hrecords.get hi (hrecords.length_eq ▸ hi)⟩

/-! ## What the builder asks -/

theorem loadLines_eq_ok {stages : List Text} {previousCompleted : Option Text} {lines : List (List UInt8)}
    {records : List CommandRecord} : loadLines stages previousCompleted lines = .ok records ↔
      List.Forall₂ (fun line record => loadLine line = .ok record) lines records ∧
        ((records.map CommandRecord.stage).Nodup ∧ ∀ stage ∈ stages, stage ∉ records.map CommandRecord.stage) ∧
          (∀ completed ∈ previousCompleted, ∀ record ∈ records.head?, completed ≤ record.startedAt) ∧
            RunsInSequence records := by
  induction lines generalizing stages previousCompleted records with
  | nil =>
      rw [loadLines]
      constructor
      · intro h
        cases h
        exact ⟨.nil, ⟨List.nodup_nil, fun _ _ => List.not_mem_nil⟩, fun _ _ => nofun, List.IsChain.nil⟩
      · rintro ⟨hlines, -⟩
        cases hlines
        rfl
  | cons line lines ih =>
      rw [loadLines, Imp.except_bind_eq_ok]
      simp only [Imp.check_bind_eq_ok, Imp.require_eq_ok]
      simp only [Imp.except_bind_eq_ok, ih]
      constructor
      · rintro ⟨record, hrecord, hstage, htime, others, ⟨hlines, ⟨hnodup, hfresh⟩, hnext, hsequence⟩, hret⟩
        cases hret
        obtain ⟨hnew, hold⟩ := List.forall_mem_cons.mp hfresh
        refine ⟨.cons hrecord hlines, ⟨List.nodup_cons.mpr ⟨hnew, hnodup⟩, fun stage hmem => ?_⟩,
          fun completed hmem next hhead => ?_, List.isChain_cons.mpr ⟨hnext _ rfl, hsequence⟩⟩
        · rw [List.map_cons, List.mem_cons, not_or]
          exact ⟨fun heq => hstage (heq ▸ hmem), hold stage hmem⟩
        · cases hhead
          exact htime completed hmem
      · rintro ⟨hlines, ⟨hnodup, hfresh⟩, htime, hsequence⟩
        cases hlines with
        | @cons _ record _ others hrecord hlines =>
            obtain ⟨hnew, hnodup⟩ := List.nodup_cons.mp hnodup
            obtain ⟨hnext, hsequence⟩ := List.isChain_cons.mp hsequence
            refine ⟨record, hrecord, fun hmem => hfresh _ hmem List.mem_cons_self,
              fun completed hmem => htime completed hmem record rfl, others,
              ⟨hlines, ⟨hnodup, List.forall_mem_cons.mpr ⟨hnew, fun stage hmem => ?_⟩⟩, fun completed hmem => ?_,
                hsequence⟩, rfl⟩
            · exact fun hin => hfresh stage hmem (List.mem_cons_of_mem _ hin)
            · cases hmem
              exact hnext

/-! ## Canonical lines -/

/-- The canonical bytes of a value are one line. -/
theorem isLine_of_canonicalJsonBytes {v : Tree} {line : List UInt8} (h : canonicalJsonBytes v = .ok line) :
    ∃ body, line = body ++ [10] ∧ ∀ b ∈ body, b ≠ 10 ∧ b ≠ 13 := by
  obtain ⟨hprinted, rfl⟩ := canonicalJsonBytes_eq_ok.mp h
  refine ⟨charBytes (Py.canonicalTextUtf8 v), by rw [Py.charBytes_append]; rfl, fun b hb => ?_⟩
  obtain ⟨c, hc, hmem⟩ := List.mem_flatMap.mp hb
  obtain ⟨hfeed, hreturn⟩ := Py.ne_of_mem_text (Py.allValid_sort hprinted) hc
  constructor
  · rintro rfl
    exact hfeed (Char.toNat_inj.mp (Py.eq_of_mem_utf8EncodeChar hmem (by decide)))
  · rintro rfl
    exact hreturn (Char.toNat_inj.mp (Py.eq_of_mem_utf8EncodeChar hmem (by decide)))

/-- What is read where a value was written is the value with its entries in order. -/
theorem eq_sort_of_parseCanonicalJson {code : String} {maxBytes : ℕ} {v w : Tree} {line : List UInt8} (hv : v.Distinct)
    (hline : canonicalJsonBytes v = .ok line) (h : parseCanonicalJson code maxBytes line = .ok w) : w = v.sort := by
  obtain ⟨hw, hcanonical, -, -, hsort⟩ := of_parseCanonicalJson h
  have hwritten := isWritten_of_canonicalJsonBytes hw hcanonical
  obtain ⟨-, rfl⟩ := canonicalJsonBytes_eq_ok.mp hcanonical
  obtain ⟨hprinted, hbytes⟩ := canonicalJsonBytes_eq_ok.mp hline
  have hread := Py.loads_canonicalTextUtf8_newline hwritten hw.distinct
  rw [Py.charBytes_injective hbytes] at hread
  have hsorted : Py.AllValid Literal.IsWritten v.sort := by
    have hv' := hread
    rw [Py.canonicalTextUtf8] at hv'
    exact Py.isWritten_of_loads (Py.allValid_sort hprinted) hv'
  have hv' : Py.AllValid Literal.IsWritten v :=
    ⟨fun s hs => hsorted.scalars s ((Json.mem_scalars_sort v s).mpr hs),
      fun key hkey => hsorted.keys key ((Json.mem_keys_sort v key).mpr hkey)⟩
  rw [Py.loads_canonicalTextUtf8_newline hv' hv] at hread
  exact hsort.trans (Except.ok.inj hread).symm

/-- A canonical line is read as the record that its value is. -/
theorem loadLine_eq_ok {v : Tree} {line : List UInt8} (hv : v.Distinct) (hline : canonicalJsonBytes v = .ok line)
    (hlength : line.length ≤ 64 * 1024) {record : CommandRecord} :
    loadLine line = .ok record ↔ validateCommandRecord v = .ok record := by
  rw [loadLine, Imp.except_bind_eq_ok]
  constructor
  · rintro ⟨w, hparse, hrecord⟩
    rwa [eq_sort_of_parseCanonicalJson hv hline hparse, mapError_eq_ok, validateCommandRecord_sort hv] at hrecord
  · intro hrecord
    obtain ⟨hjson, hlimits⟩ := withinLimits_of_validateCommandRecord hv hrecord (64 * 1024)
    refine ⟨v.sort, parseCanonicalJson_of_canonical _ hjson hline hlength hlimits, mapError_eq_ok.mpr ?_⟩
    rwa [validateCommandRecord_sort hv]

/-! ## One meaning -/

/-- Lines that some values are written as. -/
def AreLines (values : List Tree) (lines : List (List UInt8)) : Prop :=
  List.Forall₂ (fun v line => canonicalJsonBytes v = .ok line) values lines

/-- Whether the verifier and the builder read the same records, and the commands of every receipt run in sequence. -/
structure HasOneMeaning (values : List Tree) (lines : List (List UInt8)) : Prop where
  agrees : ∀ records, validateCommandRecords (.arr values) = .ok records ↔ loadCommandRecords lines.flatten = .ok records
  receipts : ∀ startedAt evidenceCutoffAt sourceSha commands,
    verifyReceiptCommands startedAt evidenceCutoffAt (.obj [(text "commands", .arr values)]) sourceSha = .ok commands →
      (commands.map CommandRecord.stage).Nodup ∧ RunsInSequence commands

section Lines

variable {values : List Tree} {lines : List (List UInt8)} (hlines : AreLines values lines)

include hlines

theorem splitLinesKeepEnds_of_areLines : Py.splitLinesKeepEnds lines.flatten = lines := by
  refine Py.splitLinesKeepEnds_flatten fun line hline => ?_
  obtain ⟨i, hi, rfl⟩ := List.mem_iff_getElem.mp hline
  exact isLine_of_canonicalJsonBytes (hlines.get (hlines.length_eq ▸ hi) hi)

theorem forall₂_loadLine_iff (hdistinct : ∀ v ∈ values, v.Distinct) (hlength : ∀ line ∈ lines, line.length ≤ 64 * 1024)
    {records : List CommandRecord} :
    List.Forall₂ (fun line record => loadLine line = .ok record) lines records ↔ AreRecords values records := by
  induction hlines generalizing records with
  | nil => exact ⟨fun h => by cases h; exact .nil, fun h => by cases h; exact .nil⟩
  | cons hhead _ ih =>
      obtain ⟨hv, hvalues⟩ := List.forall_mem_cons.mp hdistinct
      obtain ⟨hline, hrest⟩ := List.forall_mem_cons.mp hlength
      constructor
      · intro h
        cases h with
        | cons hrecord hrecords => exact .cons ((loadLine_eq_ok hv hhead hline).mp hrecord) ((ih hvalues hrest).mp hrecords)
      · intro h
        cases h with
        | cons hrecord hrecords => exact .cons ((loadLine_eq_ok hv hhead hline).mpr hrecord) ((ih hvalues hrest).mpr hrecords)

/-- What the builder asks of the lines of some values. -/
theorem loadCommandRecords_eq_ok (hdistinct : ∀ v ∈ values, v.Distinct)
    (hlength : ∀ line ∈ lines, line.length ≤ 64 * 1024) (htotal : lines.flatten.length ≤ 1024 * 1024)
    {records : List CommandRecord} : loadCommandRecords lines.flatten = .ok records ↔
      validateCommandRecords (.arr values) = .ok records ∧ RunsInSequence records := by
  have hends : ∀ line ∈ lines, line.getLast? = some 10 := fun line hline => by
    obtain ⟨i, hi, rfl⟩ := List.mem_iff_getElem.mp hline
    obtain ⟨body, heq, -⟩ := isLine_of_canonicalJsonBytes (hlines.get (hlines.length_eq ▸ hi) hi)
    exact (congrArg List.getLast? heq).trans List.getLast?_concat
  have hempty : lines.flatten = [] → lines = [] := fun hnil => by
    rw [← splitLinesKeepEnds_of_areLines hlines, hnil]
    rfl
  rw [loadCommandRecords, splitLinesKeepEnds_of_areLines hlines, Imp.check_bind_eq_ok, Imp.require_eq_ok,
    Imp.check_bind_eq_ok, Imp.require_eq_ok, loadLines_eq_ok, forall₂_loadLine_iff hlines hdistinct hlength,
    validateCommandRecords_eq_ok, hlines.length_eq]
  constructor
  · rintro ⟨-, ⟨hcount, -⟩, hrecords, ⟨hstages, -⟩, -, hsequence⟩
    exact ⟨⟨hcount, hrecords, hstages⟩, hsequence⟩
  · rintro ⟨⟨hcount, hrecords, hstages⟩, hsequence⟩
    refine ⟨⟨fun hnil => ?_, htotal⟩, ⟨hcount, hends⟩, hrecords, ⟨hstages, nofun⟩, nofun, hsequence⟩
    rw [hempty hnil] at hcount
    exact absurd hcount.1 (Nat.lt_irrefl 0)

end Lines

/-- The commands of an accepted receipt are those of its array. -/
theorem validateCommandRecords_of_verifyReceiptCommands {startedAt evidenceCutoffAt : Tree} {values : List Tree}
    {sourceSha : Text} {commands : List CommandRecord} (h : verifyReceiptCommands startedAt evidenceCutoffAt
      (.obj [(text "commands", .arr values)]) sourceSha = .ok commands) :
    validateCommandRecords (.arr values) = .ok commands := by
  rw [verifyReceiptCommands] at h
  obtain ⟨startedAt, -, h⟩ := Imp.except_bind_eq_ok.mp h
  obtain ⟨evidenceCutoffAt, -, h⟩ := Imp.except_bind_eq_ok.mp h
  obtain ⟨-, h⟩ := Imp.check_bind_eq_ok.mp h
  obtain ⟨entries, hentries, h⟩ := Imp.except_bind_eq_ok.mp h
  cases hentries
  obtain ⟨-, h⟩ := Imp.check_bind_eq_ok.mp h
  obtain ⟨records, hrecords, h⟩ := Imp.except_bind_eq_ok.mp h
  obtain ⟨-, h⟩ := Imp.check_bind_eq_ok.mp h
  obtain ⟨-, hret⟩ := Imp.check_bind_eq_ok.mp h
  cases hret
  have hfield : fieldOf [(text "commands", Json.arr values)] "commands" = .arr values :=
    fieldOf_of_mem (by exact List.nodup_singleton _) List.mem_cons_self
  rwa [hfield] at hrecords

/-- Values within the bounds have one meaning exactly if they are no records of distinct stages of which one starts
before its predecessor completed. -/
theorem hasOneMeaning_iff {values : List Tree} {lines : List (List UInt8)} (hdistinct : ∀ v ∈ values, v.Distinct)
    (hlines : AreLines values lines) (hlength : ∀ line ∈ lines, line.length ≤ 64 * 1024)
    (htotal : lines.flatten.length ≤ 1024 * 1024) :
    HasOneMeaning values lines ↔ ¬(AreDistinctCommands values ∧ ¬StartInSequence values) := by
  have hload := fun records => @loadCommandRecords_eq_ok values lines hlines hdistinct hlength htotal records
  have hsequence : ∀ records, validateCommandRecords (.arr values) = .ok records →
      (StartInSequence values ↔ RunsInSequence records) := fun records hrecords =>
    startInSequence_iff (validateCommandRecords_eq_ok.mp hrecords).2.1
  rw [not_and_not_right]
  constructor
  · intro h hvalues
    obtain ⟨records, hrecords⟩ := areDistinctCommands_iff.mp hvalues
    exact (hsequence records hrecords).mpr ((hload records).mp ((h.agrees records).mp hrecords)).2
  · intro h
    have hruns : ∀ records, validateCommandRecords (.arr values) = .ok records → RunsInSequence records :=
      fun records hrecords => (hsequence records hrecords).mp (h (areDistinctCommands_iff.mpr ⟨records, hrecords⟩))
    refine ⟨fun records => ?_, fun startedAt evidenceCutoffAt sourceSha commands haccepted => ?_⟩
    · rw [hload, iff_self_and]
      exact hruns records
    · have hrecords := validateCommandRecords_of_verifyReceiptCommands haccepted
      exact ⟨(validateCommandRecords_eq_ok.mp hrecords).2.2, hruns commands hrecords⟩

/-! ## Commands that overlap -/

/-- A command that ran for a minute. -/
def commandValue (stage : String) : Tree :=
  .obj [(text "argv", .arr [.scalar (.str (text "x"))]),
    (text "completed_at", .scalar (.str (text "2026-07-24T12:01:00Z"))), (text "cwd", .scalar (.str (text "/"))),
    (text "exit_code", .scalar (.int 0)), (text "stage", .scalar (.str (text stage))),
    (text "started_at", .scalar (.str (text "2026-07-24T12:00:00Z"))), (text "status", .scalar (.str (text "PASS")))]

/-- The canonical line of a value. -/
def lineOf (v : Tree) : List UInt8 := charBytes (Py.canonicalTextUtf8 v ++ ['\n'])

theorem distinct_commandValue (stage : String) : (commandValue stage).Distinct := by
  refine .obj (by decide +kernel : commandRecordKeys.Nodup) ?_
  simp only [List.forall_mem_cons]
  exact ⟨.arr (List.forall_mem_singleton.mpr (.scalar _)), .scalar _, .scalar _, .scalar _, .scalar _, .scalar _,
    .scalar _, nofun⟩

/-- One command is read as one record. -/
theorem hasOneMeaning_iff_one : HasOneMeaning [commandValue "a"] [lineOf (commandValue "a")] :=
  (hasOneMeaning_iff (List.forall_mem_singleton.mpr (distinct_commandValue "a"))
    (.cons (by decide +kernel) .nil) (by decide +kernel) (by decide +kernel)).mpr fun h => h.2 (List.isChain_singleton _)

/-- The verifier accepts two commands in one minute, which the builder does not. -/
theorem hasOneMeaning_counterexample : ∃ values lines, (∀ v ∈ values, v.Distinct) ∧ AreLines values lines ∧
    (∀ line ∈ lines, line.length ≤ 64 * 1024) ∧ lines.flatten.length ≤ 1024 * 1024 ∧ ¬HasOneMeaning values lines := by
  have hdistinct : ∀ v ∈ [commandValue "a", commandValue "b"], v.Distinct :=
    List.forall_mem_cons.mpr ⟨distinct_commandValue "a", List.forall_mem_singleton.mpr (distinct_commandValue "b")⟩
  have hlines : AreLines [commandValue "a", commandValue "b"] [lineOf (commandValue "a"), lineOf (commandValue "b")] :=
    .cons (by decide +kernel) (.cons (by decide +kernel) .nil)
  have hlength : ∀ line ∈ [lineOf (commandValue "a"), lineOf (commandValue "b")], line.length ≤ 300 := by
    decide +kernel
  have htotal : [lineOf (commandValue "a"), lineOf (commandValue "b")].flatten.length ≤ 600 := by decide +kernel
  have hrecords : validateCommandRecords (.arr [commandValue "a", commandValue "b"]) = .ok [
      ⟨[text "x"], text "2026-07-24T12:01:00Z", text "/", 0, text "a", text "2026-07-24T12:00:00Z"⟩,
      ⟨[text "x"], text "2026-07-24T12:01:00Z", text "/", 0, text "b", text "2026-07-24T12:00:00Z"⟩] := by
    decide +kernel
  have hoverlap : ¬RunsInSequence [
      ⟨[text "x"], text "2026-07-24T12:01:00Z", text "/", 0, text "a", text "2026-07-24T12:00:00Z"⟩,
      ⟨[text "x"], text "2026-07-24T12:01:00Z", text "/", 0, text "b", text "2026-07-24T12:00:00Z"⟩] := by
    decide +kernel
  have hlength' : ∀ line ∈ [lineOf (commandValue "a"), lineOf (commandValue "b")], line.length ≤ 64 * 1024 :=
    fun line hline => le_trans (hlength line hline) (by decide)
  refine ⟨_, _, hdistinct, hlines, hlength', le_trans htotal (by decide), fun h => hoverlap ?_⟩
  exact ((loadCommandRecords_eq_ok hlines hdistinct hlength' (le_trans htotal (by decide))).mp
    ((h.agrees _).mp hrecords)).2

end StateWeaver.Candidate

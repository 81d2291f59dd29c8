import Mathlib
import StateWeaver.Lib.PurePath

/-!
# Results of acceptance rows

A requirement names the tests that have to pass by selectors, a test file and a name in it; a report names the
tests that passed by the dotted name of a module and a name in it. As a report may have been made from a
directory of the repository, a file's tests are looked for under every dotted name that starts at a `tests`
directory. Files of two packages with one path below `tests` then answer to one name (`selectorIsObserved_spec`).
-/

namespace StateWeaver.Evidence

open Py (CodePoint Text text partition PurePosixPath dot slash)

/-! ## Observed tests -/

/-- The directories of a test file and its name without the suffix: `(*path.parts[:-1], path.stem)`. -/
def moduleParts (selectorPath : Text) : List Text :=
  let path := PurePosixPath.parse selectorPath
  path.parts.dropLast ++ [path.stem]

/-- `".".join(parts)`. -/
def dotted (parts : List Text) : Text := [dot].intercalate parts

/-- `_selector_module_candidates`. -/
def selectorModuleCandidates (selectorPath : Text) : List Text :=
  let parts := moduleParts selectorPath
  dotted parts :: (parts.tails.filter fun rest => rest.head? = some (text "tests")).map dotted

def bracket : CodePoint := 91

/-- Whether the name of a test is what a selector asks for: the name itself, or the name with parameters if the
selector has none. -/
def namesTest (selectorName testcaseName : Text) : Bool :=
  let parameterized := selectorName.contains bracket
  let baseName := (partition [bracket] selectorName).1
  testcaseName = selectorName || !parameterized && (baseName ++ [bracket]).isPrefixOf testcaseName

/-- The test file of a selector. -/
def selectorPath (selector : Text) : Text := (partition (text "::") selector).1

/-- The name in the test file. -/
def selectorName (selector : Text) : Text := (partition (text "::") selector).2.2

/-- Whether one identity is an observation of a selector. -/
def observes (selector identity : Text) : Bool :=
  let (classname, separated, testcaseName) := partition (text "::") identity
  separated && (selectorModuleCandidates (selectorPath selector)).contains classname &&
    namesTest (selectorName selector) testcaseName

/-- `_selector_is_observed`. -/
def selectorIsObserved (selector : Text) (identities : List Text) : Bool := identities.any (observes selector)

/-! ## Rows -/

/-- What makes the tests and the evidence of a requirement count. -/
inductive GateClass where
  | localOffline | localInProcess | liveProvider | runtimeObservation | materializedRuntime | liveModelProvider
  | cleanMachine | externalTrust | independentBenchmark | externalNewUser
  deriving DecidableEq

/-- `_LOCAL_RESULT_GATES`. -/
def GateClass.isLocal (gate : GateClass) : Bool := gate = .localOffline || gate = .localInProcess

inductive AcceptanceResultStatus where
  | pass | fail | notRun | blocked
  deriving DecidableEq

/-- What the results read of a requirement. -/
structure AcceptanceRequirement where
  id : Text
  gateClass : GateClass
  /-- The paths of the evidence. -/
  evidence : List Text
  /-- The selectors of the tests. -/
  tests : List Text

structure AcceptanceRequirementResult where
  requirementId : Text
  gateClass : GateClass
  status : AcceptanceResultStatus
  testsObserved : List Text
  testsMissing : List Text
  evidenceObserved : List Text
  evidenceMissing : List Text
  qualificationAdmissionDigest : Option Text

/-- `_PATH_PART_RE`. -/
def isPathPart (part : Text) : Bool :=
  let isPlain (c : CodePoint) : Bool := 48 ≤ c.val && c.val ≤ 57 || 65 ≤ c.val && c.val ≤ 90 || 97 ≤ c.val && c.val ≤ 122
  match part with
  | [] => false
  | c :: rest => isPlain c && rest.all fun d => isPlain d || d = dot || d.val = 95 || d.val = 45

/-- `_is_canonical_evidence_path`. A path of plain parts has no blank at its ends. -/
def isCanonicalEvidencePath (value : Text) : Bool :=
  let path := PurePosixPath.parse value
  !path.isAbsolute && path.parts ≠ [] && path.parts.all isPathPart && path.str = value

/-- `_ADMISSION_DIGEST_RE`. -/
def isAdmissionDigest (digest : Text) : Bool :=
  (text "sha256:").isPrefixOf digest && digest.length = 71 &&
    (digest.drop 7).all fun c => 48 ≤ c.val && c.val ≤ 57 || 97 ≤ c.val && c.val ≤ 102

/-- `sorted(texts)`. -/
def sorted (texts : List Text) : List Text := texts.insertionSort (· ≤ ·)

/-- `tuple(sorted(set(required) - set(observed)))`. -/
def missing (required observed : List Text) : List Text :=
  sorted (required.dedup.filter fun t => t ∉ observed)

/-- The row of a requirement. -/
def resultRow (identities observedPaths : List Text) (admissions : List (Text × Text))
    (requirement : AcceptanceRequirement) : Except String AcceptanceRequirementResult :=
  let requiredTests := sorted requirement.tests
  let testsObserved := requiredTests.filter (selectorIsObserved · identities)
  let testsMissing := missing requiredTests testsObserved
  let requiredEvidence := sorted requirement.evidence.dedup
  let evidenceObserved := requiredEvidence.filter (· ∈ observedPaths)
  let evidenceMissing := missing requiredEvidence evidenceObserved
  let admission := admissions.lookup requirement.id
  let hasMissing := testsMissing ≠ [] ∨ evidenceMissing ≠ []
  if admission ≠ none ∧ hasMissing then
    .error "verified qualification admission does not have complete proof inputs"
  else
    .ok
      { requirementId := requirement.id
        gateClass := requirement.gateClass
        status :=
          if requirement.gateClass.isLocal then if hasMissing then .notRun else .pass
          else if admission ≠ none then .pass else .blocked
        testsObserved, testsMissing, evidenceObserved, evidenceMissing
        qualificationAdmissionDigest := admission }

/-- `derive_acceptance_results`, for the requirements of the reviewed registry. -/
def deriveAcceptanceResults (requirements : List AcceptanceRequirement)
    (passingTestIdentities observedEvidencePaths : List Text) (admissions : List (Text × Text)) :
    Except String (List AcceptanceRequirementResult) := do
  if [] ∈ passingTestIdentities then throw "passing test identities are invalid"
  if ¬passingTestIdentities.Nodup then throw "passing test identities must be unique"
  if ¬observedEvidencePaths.all isCanonicalEvidencePath then throw "observed evidence paths are invalid"
  if ¬observedEvidencePaths.Nodup then throw "observed evidence paths must be unique"
  if ¬admissions.all fun admission =>
      requirements.any (fun r => r.id = admission.1 && !r.gateClass.isLocal) && isAdmissionDigest admission.2 then
    throw "verified qualification admissions are invalid"
  requirements.mapM (resultRow (sorted passingTestIdentities) observedEvidencePaths admissions)

/-! ## Observations -/

theorem selectorIsObserved_eq_true {selector : Text} {identities : List Text} :
    selectorIsObserved selector identities = true ↔ ∃ identity ∈ identities, observes selector identity = true :=
  List.any_eq_true

theorem selectorIsObserved_mono {selector : Text} {identities identities' : List Text} (h : identities ⊆ identities')
    (hobserved : selectorIsObserved selector identities = true) : selectorIsObserved selector identities' = true := by
  obtain ⟨identity, hmem, hidentity⟩ := selectorIsObserved_eq_true.mp hobserved
  exact selectorIsObserved_eq_true.mpr ⟨identity, h hmem, hidentity⟩

theorem mem_selectorModuleCandidates {path m : Text} : m ∈ selectorModuleCandidates path ↔
    ∃ parts, parts <:+ moduleParts path ∧ (parts = moduleParts path ∨ parts.head? = some (text "tests")) ∧
      m = dotted parts := by
  simp only [selectorModuleCandidates, List.mem_cons, List.mem_map, List.mem_filter, List.mem_tails,
    decide_eq_true_eq]
  constructor
  · rintro (rfl | ⟨parts, ⟨hsuffix, hhead⟩, rfl⟩)
    · exact ⟨_, List.suffix_rfl, Or.inl rfl, rfl⟩
    · exact ⟨parts, hsuffix, Or.inr hhead, rfl⟩
  · rintro ⟨parts, hsuffix, rfl | hhead, rfl⟩
    · exact Or.inl rfl
    · exact Or.inr ⟨parts, ⟨hsuffix, hhead⟩, rfl⟩

theorem observes_eq_true {selector identity : Text} : observes selector identity = true ↔
    ∃ classname name, partition (text "::") identity = (classname, true, name) ∧
      classname ∈ selectorModuleCandidates (selectorPath selector) ∧
      namesTest (selectorName selector) name = true := by
  rw [observes]
  obtain ⟨classname, separated, name⟩ := partition (text "::") identity
  simp only [Bool.and_eq_true, List.contains_iff_mem, Prod.mk.injEq]
  constructor
  · rintro ⟨⟨rfl, hclass⟩, hname⟩
    exact ⟨_, _, ⟨rfl, rfl, rfl⟩, hclass, hname⟩
  · rintro ⟨_, _, ⟨rfl, rfl, rfl⟩, hclass, hname⟩
    exact ⟨⟨rfl, hclass⟩, hname⟩

/-- A requirement's observed tests are those that are required and observed. -/
theorem mem_testsObserved {identities observedPaths : List Text} {admissions : List (Text × Text)}
    {requirement : AcceptanceRequirement} {row : AcceptanceRequirementResult}
    (h : resultRow identities observedPaths admissions requirement = .ok row) {selector : Text} :
    selector ∈ row.testsObserved ↔
      selector ∈ requirement.tests ∧ selectorIsObserved selector identities = true := by
  rw [resultRow] at h
  split at h
  · cases h
  · cases h
    rw [List.mem_filter, sorted, List.mem_insertionSort]

/-! ## Test files -/

/-- Whether a path names a Python file and has no other point than that of the suffix. -/
structure IsTestFile (path : Text) : Prop where
  python : text ".py" <:+ (PurePosixPath.parse path).name
  noDots : ∀ part ∈ moduleParts path, dot ∉ part

/-- Dotted names of parts without points are distinct. -/
theorem dotted_inj {parts parts' : List Text} (hne : parts ≠ []) (hne' : parts' ≠ [])
    (h : ∀ part ∈ parts, dot ∉ part) (h' : ∀ part ∈ parts', dot ∉ part) (heq : dotted parts = dotted parts') :
    parts = parts' := by
  have hsplit := congrArg (List.splitOn dot) heq
  rwa [dotted, dotted, List.splitOn_intercalate dot h hne, List.splitOn_intercalate dot h' hne'] at hsplit

theorem moduleParts_ne_nil (path : Text) : moduleParts path ≠ [] := List.append_ne_nil_of_right_ne_nil _ nofun

/-- A dotted name of a test file names at least its stem. -/
theorem ne_nil_of_candidate {path : Text} {parts : List Text}
    (h : parts = moduleParts path ∨ parts.head? = some (text "tests")) : parts ≠ [] := by
  rintro rfl
  rcases h with h | h
  · exact moduleParts_ne_nil path h.symm
  · cases h

/-- The name of a test file is its stem and the suffix. -/
theorem IsTestFile.name_eq {path : Text} (h : IsTestFile path) :
    (PurePosixPath.parse path).name = (PurePosixPath.parse path).stem ++ text ".py" := by
  obtain ⟨base, hname⟩ := h.python
  have hlength : (text ".py").length = 3 := rfl
  have hextension : ((base ++ text ".py").reverse.takeWhile (· ≠ dot)).reverse = text "py" := by
    rw [List.reverse_append]
    rfl
  have hstem : dot ∉ (PurePosixPath.parse path).stem := h.noDots _ (List.mem_append_right _ List.mem_cons_self)
  rw [PurePosixPath.stem, ← hname, hextension, List.length_append, hlength] at hstem
  rw [PurePosixPath.stem, ← hname, hextension, List.length_append, hlength]
  by_cases hbase : base = []
  · subst hbase
    exact absurd (by decide) hstem
  · have hpos := List.length_pos_of_ne_nil hbase
    rw [if_pos ⟨by decide, by change 2 + 1 < base.length + 3; omega⟩]
    change base ++ text ".py" = (base ++ text ".py").take (base.length + 3 - (2 + 1)) ++ text ".py"
    rw [Nat.add_sub_cancel, List.take_left]

/-- The parts of a test file's module give back the parts of its path. -/
theorem IsTestFile.parts_eq {path : Text} (h : IsTestFile path) : (PurePosixPath.parse path).parts =
    (moduleParts path).dropLast ++ [(moduleParts path).getLast (moduleParts_ne_nil path) ++ text ".py"] := by
  have hlast : (moduleParts path).getLast (moduleParts_ne_nil path) = (PurePosixPath.parse path).stem :=
    List.getLast_append_singleton _
  have hinit : (moduleParts path).dropLast = (PurePosixPath.parse path).parts.dropLast := List.dropLast_concat
  rw [hlast, hinit, ← h.name_eq]
  have htail : (PurePosixPath.parse path).tail ≠ [] := by
    intro hnil
    have hname : (PurePosixPath.parse path).name = [] := by rw [PurePosixPath.name, hnil]; rfl
    rw [h.name_eq] at hname
    exact absurd (List.append_eq_nil_iff.mp hname).2 (by decide)
  have hname : (PurePosixPath.parse path).name = (PurePosixPath.parse path).tail.getLast htail := by
    rw [PurePosixPath.name, List.getLastD_eq_getLast?, List.getLast?_eq_getLast_of_ne_nil htail]
    rfl
  rw [hname, PurePosixPath.parts]
  split
  · exact (List.dropLast_append_getLast htail).symm
  · rw [List.dropLast_cons_of_ne_nil htail, List.cons_append, List.dropLast_append_getLast htail]

/-- Different test files have different modules. -/
theorem moduleParts_ne {path path' : Text} (h : IsTestFile path) (h' : IsTestFile path')
    (hne : (PurePosixPath.parse path).parts ≠ (PurePosixPath.parse path').parts) :
    moduleParts path ≠ moduleParts path' := by
  intro heq
  refine hne ?_
  rw [h.parts_eq, h'.parts_eq]
  simp only [heq]

/-! ## Attribution -/

/-- Whether two test files have the same path from a directory `tests` on. -/
def SameBelowTests (path path' : Text) : Prop :=
  ∃ parts, parts.head? = some (text "tests") ∧ parts <:+ moduleParts path ∧ parts <:+ moduleParts path'

/-- A test under a dotted name of two test files. -/
theorem sameBelowTests_of_mem {path path' m : Text} (h : IsTestFile path) (h' : IsTestFile path')
    (hne : moduleParts path ≠ moduleParts path') (hm : m ∈ selectorModuleCandidates path)
    (hm' : m ∈ selectorModuleCandidates path') : SameBelowTests path path' := by
  obtain ⟨parts, hsuffix, hparts, rfl⟩ := mem_selectorModuleCandidates.mp hm
  obtain ⟨parts', hsuffix', hparts', heq⟩ := mem_selectorModuleCandidates.mp hm'
  obtain rfl := dotted_inj (ne_nil_of_candidate hparts) (ne_nil_of_candidate hparts')
    (fun part hpart => h.noDots part (hsuffix.subset hpart))
    (fun part hpart => h'.noDots part (hsuffix'.subset hpart)) heq
  refine ⟨parts, ?_, hsuffix, hsuffix'⟩
  rcases hparts with hwhole | hhead
  · rcases hparts' with hwhole' | hhead'
    · exact absurd (hwhole.symm.trans hwhole') hne
    · exact hhead'
  · exact hhead

/-- A dotted name without a colon and a name make the identity of a test. -/
theorem partition_identity {m : Text} (h : (58 : CodePoint) ∉ m) (name : Text) :
    partition (text "::") (m ++ text "::" ++ name) = (m, true, name) := by
  rw [partition, Py.cut?_append (c := 58) rfl h]

/-- Whether a test is observed depends on the set of identities and grows with it. A test of one file is an
observation of a selector of another one only if the files have the same path from a directory `tests` on, and
then one test is an observation of both if the selectors admit its name. -/
theorem selectorIsObserved_spec (selector selector' : Text) :
    (∀ identities identities' : List Text, identities ⊆ identities' →
      selectorIsObserved selector identities = true → selectorIsObserved selector identities' = true) ∧
    (∀ identities identities' : List Text, (∀ identity, identity ∈ identities ↔ identity ∈ identities') →
      selectorIsObserved selector identities = selectorIsObserved selector identities') ∧
    (IsTestFile (selectorPath selector) → IsTestFile (selectorPath selector') →
      (PurePosixPath.parse (selectorPath selector)).parts ≠ (PurePosixPath.parse (selectorPath selector')).parts →
      ∀ identity, selectorIsObserved selector [identity] = true → selectorIsObserved selector' [identity] = true →
        SameBelowTests (selectorPath selector) (selectorPath selector')) ∧
    ∀ parts, parts.head? = some (text "tests") → parts <:+ moduleParts (selectorPath selector) →
      parts <:+ moduleParts (selectorPath selector') → (58 : CodePoint) ∉ dotted parts → ∀ name,
      namesTest (selectorName selector) name = true → namesTest (selectorName selector') name = true →
        selectorIsObserved selector [dotted parts ++ text "::" ++ name] = true ∧
          selectorIsObserved selector' [dotted parts ++ text "::" ++ name] = true := by
  refine ⟨fun _ _ => selectorIsObserved_mono, fun identities identities' h => ?_, ?_, ?_⟩
  · exact Bool.eq_iff_iff.mpr ⟨selectorIsObserved_mono fun i hi => (h i).mp hi,
      selectorIsObserved_mono fun i hi => (h i).mpr hi⟩
  · intro hfile hfile' hne identity hobserved hobserved'
    obtain ⟨_, hmem, hobserves⟩ := selectorIsObserved_eq_true.mp hobserved
    obtain rfl := List.mem_singleton.mp hmem
    obtain ⟨_, hmem', hobserves'⟩ := selectorIsObserved_eq_true.mp hobserved'
    obtain rfl := List.mem_singleton.mp hmem'
    obtain ⟨classname, name, hidentity, hclass, -⟩ := observes_eq_true.mp hobserves
    obtain ⟨classname', name', hidentity', hclass', -⟩ := observes_eq_true.mp hobserves'
    rw [hidentity] at hidentity'
    cases hidentity'
    exact sameBelowTests_of_mem hfile hfile' (moduleParts_ne hfile hfile' hne) hclass hclass'
  · intro parts hhead hsuffix hsuffix' hcolon name hname hname'
    have hidentity := partition_identity hcolon name
    have hobserved : ∀ selector, parts <:+ moduleParts (selectorPath selector) →
        namesTest (selectorName selector) name = true →
        selectorIsObserved selector [dotted parts ++ text "::" ++ name] = true := by
      intro selector hsuffix hname
      refine selectorIsObserved_eq_true.mpr ⟨_, List.mem_singleton_self _, ?_⟩
      exact observes_eq_true.mpr ⟨_, _, hidentity,
        mem_selectorModuleCandidates.mpr ⟨parts, hsuffix, Or.inr hhead, rfl⟩, hname⟩
    exact ⟨hobserved selector hsuffix hname, hobserved selector' hsuffix' hname'⟩

theorem selectorIsObserved_spec_models :
    SameBelowTests (text "a/tests/test_x.py") (text "b/tests/test_x.py") :=
  (selectorIsObserved_spec (text "a/tests/test_x.py::test_y")
    (text "b/tests/test_x.py::test_y")).2.2.1
    ⟨by decide +kernel, by decide +kernel⟩ ⟨by decide +kernel, by decide +kernel⟩ (by decide +kernel)
    (text "tests.test_x::test_y") (by decide +kernel) (by decide +kernel)

/-- One test of two packages' files of one name, and one of two files whose names differ in a point. -/
theorem selectorIsObserved_counterexample :
    let identity := text "tests.test_x::test_y"
    let dotted := text "tests.a.test_x::test_y"
    selectorIsObserved (text "a/tests/test_x.py::test_y") [identity] = true ∧
      selectorIsObserved (text "b/tests/test_x.py::test_y") [identity] = true ∧
      selectorIsObserved (text "tests/a/test_x.py::test_y") [dotted] = true ∧
      selectorIsObserved (text "tests/a.test_x.py::test_y") [dotted] = true := by
  decide +kernel

end StateWeaver.Evidence

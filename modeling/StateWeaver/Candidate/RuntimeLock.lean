import Mathlib
import StateWeaver.Candidate.TomlPreflight
import StateWeaver.Lib.Collecting
import StateWeaver.Lib.Dict
import StateWeaver.Lib.Utf8
import StateWeaver.Lib.Worklist

/-!
# The runtime closure of a lock

A lock lists the packages of the workspace and of the registry with their dependencies. The packages that are
installed are found by a worklist from the editable packages of the workspace on: every dependency without a marker,
or with a marker that is true for the target, is followed.
-/

namespace StateWeaver.Candidate

open Py (CodePoint Text Literal text dot slash PurePosixPath)

/-! ## Values of TOML -/

/-- What `tomllib.loads` returns. -/
inductive Toml where
  /-- A text, a number or a boolean. -/
  | scalar (value : Literal)
  /-- A date or a time. -/
  | temporal (isoformat : Text)
  | array (items : List Toml)
  | table (entries : List (Text × Toml))

namespace Toml

def text? : Toml → Option Text
  | .scalar (.str s) => some s
  | _ => none

def array? : Toml → Option (List Toml)
  | .array items => some items
  | _ => none

def table? : Toml → Option (List (Text × Toml))
  | .table entries => some entries
  | _ => none

/-- `value == n`. -/
def equalsInt (value : Toml) (n : ℤ) : Bool :=
  match value with
  | .scalar a => Literal.eq a (.int n)
  | _ => false

end Toml

/-- `table.get(key)`. -/
def tomlGet (table : List (Text × Toml)) (key : String) : Option Toml := table.lookup (text key)

/-! ## Names -/

/-- A letter or a digit of ASCII. -/
def isAlnum (c : CodePoint) : Bool := isDigit c || 65 ≤ c.val && c.val ≤ 90 || 97 ≤ c.val && c.val ≤ 122

/-- A point, an underscore or a dash. -/
def isNameSeparator (c : CodePoint) : Bool := c.val = 45 || c.val = 46 || c.val = 95

/-- `_NAME_RE`. -/
def isPackageName (name : Text) : Bool :=
  match name with
  | [] => false
  | c :: rest => isAlnum c && rest.length ≤ 199 && rest.all fun d => isAlnum d || isNameSeparator d

/-- `re.sub(r"[-_.]+", "-", name)`. -/
def collapseSeparators : Text → Text
  | [] => []
  | c :: rest =>
      if isNameSeparator c then
        if (rest.head?.map isNameSeparator).getD false then collapseSeparators rest
        else 45 :: collapseSeparators rest
      else c :: collapseSeparators rest

/-- `name.lower()`, of an ASCII text. -/
def asciiLower (name : Text) : Text :=
  name.map fun c => if 65 ≤ c.val ∧ c.val ≤ 90 then Fin.ofNat 0x110000 (c.val + 32) else c

/-- `canonicalize_name`. -/
def canonicalizeName (name : Text) : Except Failure Text := do
  Imp.require (isPackageName name) lockfileInvalid
  return asciiLower (collapseSeparators name)

/-- `_VERSION_RE`. -/
def isPackageVersion (version : Text) : Bool :=
  match version with
  | [] => false
  | c :: rest => isAlnum c && rest.length ≤ 199 &&
      rest.all fun d => isAlnum d || isNameSeparator d || d.val = 33 || d.val = 43

/-! ## Records of a lock -/

structure LockedDependency where
  name : Text
  marker : Option Text
  deriving DecidableEq

structure LockedWheel where
  filename : Text
  sha256 : Text
  deriving DecidableEq

inductive SourceKind where
  | editable | registry | virtual
  deriving DecidableEq

structure LockedPackage where
  name : Text
  version : Text
  sourceKind : SourceKind
  dependencies : List LockedDependency
  wheels : List LockedWheel
  deriving DecidableEq

structure RuntimeLock where
  target : RuntimeTarget
  members : List Text
  workspace : List LockedPackage
  runtime : List LockedPackage

/-- The parts of a URL that are read. -/
structure UrlParts where
  scheme : Text
  path : Text
  hostname : Option Text
  username : Option Text
  password : Option Text
  query : Text
  fragment : Text

/-- The parsers of the standard library: of expressions, of URLs, of escapes in them, and of TOML in UTF-8. -/
structure LockReaders where
  parseMarker : Text → Option Expr
  /-- Nothing for a `ValueError`. -/
  urlsplit : Text → Option UrlParts
  unquote : Text → Text
  /-- Nothing for bytes that are not UTF-8 or not TOML. -/
  tomlLoads : List UInt8 → Option (List (Text × Toml))

/-! ## Wheels and dependencies -/

/-- `_HASH_RE`. -/
def isLockedHash (digest : Text) : Bool :=
  (text "sha256:").isPrefixOf digest && digest.length = 71 && (digest.drop 7).all isLowerHex

/-- A URL that names nothing but a file on a host. -/
def UrlParts.isPlainHttps (parsed : UrlParts) : Bool :=
  parsed.scheme = text "https" && parsed.hostname.getD [] ≠ [] && parsed.username = none && parsed.password = none &&
    parsed.query = [] && parsed.fragment = []

def isWheelFilename (filename : Text) : Bool :=
  (text ".whl").isSuffixOf filename && !filename.contains slash && !filename.contains 92 && filename.length ≤ 512

/-- The checks of `_locked_wheels` on one item. -/
def wheelOf (readers : LockReaders) (item : Toml) : Except Failure LockedWheel := do
  let table ← orRaise item.table? lockfileInvalid
  let url ← orRaise ((tomlGet table "url").bind Toml.text?) lockfileInvalid
  let digest ← orRaise ((tomlGet table "hash").bind Toml.text?) lockfileInvalid
  let parsed ← orRaise (readers.urlsplit url) .value
  let filename := readers.unquote (PurePosixPath.parse parsed.path).name
  Imp.require (isLockedHash digest ∧ parsed.isPlainHttps ∧ isWheelFilename filename) lockfileInvalid
  return { filename, sha256 := digest.drop 7 }

/-- The loop of `_locked_wheels`: two wheels of one filename are one wheel. -/
def addWheel (readers : LockReaders) (wheels : Dict Text LockedWheel) (item : Toml) :
    Except Failure (Dict Text LockedWheel) := do
  let wheel ← wheelOf readers item
  Imp.require (∀ previous ∈ wheels.get? wheel.filename, previous = wheel) lockfileInvalid
  return wheels.insert wheel.filename wheel

/-- The last check of `_locked_wheels`. -/
def checkWheelName (packageName : Text) (wheel : LockedWheel) : Except Failure Unit := do
  let name ← canonicalizeName wheel.filename
  Imp.require (packageName <:+: name) lockfileInvalid

/-- `_locked_wheels`. -/
def lockedWheels (readers : LockReaders) (raw : Option Toml) (packageName : Text) :
    Except Failure (List LockedWheel) := do
  let items ← orRaise (raw.bind Toml.array?) lockfileInvalid
  Imp.require (items ≠ []) lockfileInvalid
  let wheels ← items.foldlM (addWheel readers) Dict.empty
  let result := wheels.values.insertionSort fun a b => a.filename ≤ b.filename
  Imp.forEach result (checkWheelName packageName)
  return result

/-- The checks of `_dependencies` on one item. -/
def dependencyOf (item : Toml) : Except Failure LockedDependency := do
  let table ← orRaise item.table? lockfileInvalid
  Imp.require (∀ key ∈ table.map Prod.fst, key = text "marker" ∨ key = text "name") lockfileInvalid
  let name ← orRaise ((tomlGet table "name").bind Toml.text?) lockfileInvalid
  Imp.require (∀ marker ∈ tomlGet table "marker", marker.text? ≠ none) lockfileInvalid
  let name ← canonicalizeName name
  return { name, marker := (tomlGet table "marker").bind Toml.text? }

/-- `_dependencies`. -/
def dependenciesOf (raw : Option Toml) : Except Failure (List LockedDependency) :=
  match raw with
  | none => .ok []
  | some raw => do
      let items ← orRaise raw.array? lockfileInvalid
      items.mapM dependencyOf

/-! ## Packages -/

def SourceKind.ofText (kind : Text) : Option SourceKind :=
  if kind = text "editable" then some .editable
  else if kind = text "registry" then some .registry
  else if kind = text "virtual" then some .virtual
  else none

/-- The source of a package, which has one kind. -/
def sourceOf (source : List (Text × Toml)) : Option SourceKind :=
  match source with
  | [(kind, value)] => do
      let kind ← SourceKind.ofText kind
      let value ← value.text?
      if kind = .registry ∧ value ≠ text "https://pypi.org/simple" then none else return kind
  | _ => none

/-- Only a package of the registry has wheels. -/
def packageWheels (readers : LockReaders) (sourceKind : SourceKind) (raw : Option Toml) (name : Text) :
    Except Failure (List LockedWheel) :=
  match sourceKind with
  | .registry => lockedWheels readers raw name
  | _ => .ok []

/-- What the loop of `parse_runtime_lock` reads of one package. -/
def packageOf (readers : LockReaders) (raw : Toml) : Except Failure LockedPackage := do
  let table ← orRaise raw.table? lockfileInvalid
  let rawName ← orRaise ((tomlGet table "name").bind Toml.text?) lockfileInvalid
  let version ← orRaise ((tomlGet table "version").bind Toml.text?) lockfileInvalid
  Imp.require (isPackageVersion version) lockfileInvalid
  let source ← orRaise ((tomlGet table "source").bind Toml.table?) lockfileInvalid
  Imp.require (source.length = 1) lockfileInvalid
  let name ← canonicalizeName rawName
  let sourceKind ← orRaise (sourceOf source) lockfileInvalid
  let wheels ← packageWheels readers sourceKind (tomlGet table "wheels") name
  let dependencies ← dependenciesOf (tomlGet table "dependencies")
  return { name, version, sourceKind, dependencies, wheels }

def packageAmbiguity : Failure := .candidate "python-lock-package-ambiguity"

def addPackage (readers : LockReaders) (packages : Dict Text LockedPackage) (raw : Toml) :
    Except Failure (Dict Text LockedPackage) := do
  let package ← packageOf readers raw
  Imp.require (packages.get? package.name = none) packageAmbiguity
  return packages.insert package.name package

/-- The members and the packages of a lock. -/
def readLock (readers : LockReaders) (parsed : List (Text × Toml)) (target : RuntimeTarget) :
    Except Failure (List Text × Dict Text LockedPackage) := do
  Imp.require (((tomlGet parsed "version").map (Toml.equalsInt · 1)).getD false) lockfileInvalid
  Imp.require (((tomlGet parsed "revision").map (Toml.equalsInt · 3)).getD false) lockfileInvalid
  let allowed ← requiresPythonAllows ((tomlGet parsed "requires-python").bind Toml.text?) target
  Imp.require (allowed = true) lockfileInvalid
  let manifest ← orRaise ((tomlGet parsed "manifest").bind Toml.table?) lockfileInvalid
  let rawPackages ← orRaise ((tomlGet parsed "package").bind Toml.array?) lockfileInvalid
  Imp.require (rawPackages ≠ []) lockfileInvalid
  let rawMembers ← orRaise ((tomlGet manifest "members").bind Toml.array?) lockfileInvalid
  let rawMembers ← orRaise (rawMembers.mapM Toml.text?) lockfileInvalid
  let members ← rawMembers.mapM canonicalizeName
  Imp.require (members = members.dedup.insertionSort (· ≤ ·)) lockfileInvalid
  let packages ← rawPackages.foldlM (addPackage readers) Dict.empty
  return (members, packages)

/-! ## The worklist -/

def dependencyMissing : Failure := .candidate "python-lock-dependency-missing"

/-- Whether a dependency is followed. -/
def LockedDependency.applies (readers : LockReaders) (target : RuntimeTarget) (dependency : LockedDependency) :
    Except Failure Bool :=
  match dependency.marker with
  | none => .ok true
  | some marker => evaluateMarker readers.parseMarker marker target

/-- The loop over the dependencies of a package: the names it puts on the list. -/
def followed (readers : LockReaders) (target : RuntimeTarget) (packages : Dict Text LockedPackage) :
    List LockedDependency → Except Failure (List Text)
  | [] => .ok []
  | dependency :: rest => do
      if ← dependency.applies readers target then
        Imp.require (packages.contains dependency.name) dependencyMissing
        return dependency.name :: (← followed readers target packages rest)
      else followed readers target packages rest

/-- The variables of the loop, the top of the stack first. -/
structure ClosureState where
  pending : List Text
  visited : List Text
  registry : Dict Text LockedPackage
  deriving DecidableEq

/-- The body of the loop. -/
def closureBody (readers : LockReaders) (target : RuntimeTarget) (packages : Dict Text LockedPackage)
    (s : ClosureState) : ClosureState ⊕ Except Failure (Dict Text LockedPackage) :=
  match s.pending with
  | [] => .inr (.ok s.registry)
  | name :: rest =>
      if name ∈ s.visited then .inl { s with pending := rest }
      else
        match packages.get? name with
        | none => .inr (.error dependencyMissing)
        | some package =>
            match followed readers target packages package.dependencies with
            | .error failure => .inr (.error failure)
            | .ok names => .inl
                { pending := names.reverse ++ rest
                  visited := name :: s.visited
                  registry :=
                    if package.sourceKind = .registry then s.registry.insert name package else s.registry }

theorem length_followed {readers : LockReaders} {target : RuntimeTarget} {packages : Dict Text LockedPackage}
    {dependencies : List LockedDependency} {names : List Text}
    (h : followed readers target packages dependencies = .ok names) : names.length ≤ dependencies.length := by
  induction dependencies generalizing names with
  | nil =>
      cases h
      exact Nat.le_refl 0
  | cons dependency rest ih =>
      obtain ⟨applies, -, h⟩ := Imp.except_bind_eq_ok.mp h
      cases applies with
      | false => exact Nat.le_succ_of_le (ih h)
      | true =>
          obtain ⟨-, h⟩ := Imp.check_bind_eq_ok.mp h
          obtain ⟨names', hrest, h⟩ := Imp.except_bind_eq_ok.mp h
          cases h
          exact Nat.succ_le_succ (ih hrest)

/-- How many dependencies a package has. -/
def dependencyCount (packages : Dict Text LockedPackage) (name : Text) : ℕ :=
  ((packages.get? name).map fun package => package.dependencies.length).getD 0

/-- The loop. Every package is expanded once at most. -/
def closureLoop (readers : LockReaders) (target : RuntimeTarget) (packages : Dict Text LockedPackage) :
    Loop ClosureState (Except Failure (Dict Text LockedPackage)) where
  body := closureBody readers target packages
  variant s := Worklist.weight (dependencyCount packages) packages.keys s.pending s.visited
  decreases {s s'} h := by
    obtain ⟨pending, visited, registry⟩ := s
    cases pending with
    | nil => cases h
    | cons name rest =>
        simp only [closureBody] at h
        by_cases hvisited : name ∈ visited
        · rw [if_pos hvisited] at h
          cases h
          exact Worklist.weight_skip _ _
        rw [if_neg hvisited] at h
        cases hget : packages.get? name with
        | none =>
            rw [hget] at h
            cases h
        | some package =>
            rw [hget] at h
            cases hnames : followed readers target packages package.dependencies with
            | error failure =>
                simp only [hnames] at h
                cases h
            | ok names =>
                simp only [hnames] at h
                cases h
                refine Worklist.weight_visit _ (Dict.mem_keys.mpr ⟨package, hget⟩) hvisited ?_
                rw [dependencyCount, hget]
                exact length_followed hnames

/-! ## The lock -/

def workspaceInventoryInvalid : Failure := .candidate "workspace-lock-inventory-invalid"
def workspaceMembersInvalid : Failure := .candidate "workspace-lock-members-invalid"
def expectedWorkspaceDistributions : ℕ := 18

/-- `sorted(packages, key=lambda package: package.name)`. -/
def sortPackages (packages : List LockedPackage) : List LockedPackage :=
  packages.insertionSort fun a b => a.name ≤ b.name

/-- The editable packages of a lock, by their names. -/
def workspaceOf (packages : Dict Text LockedPackage) : List LockedPackage :=
  sortPackages (packages.values.filter fun package => package.sourceKind = .editable)

/-- The names of the packages that a workspace declares. -/
def declaredMembers (packages : Dict Text LockedPackage) : List Text :=
  ((packages.values.filter fun package => package.sourceKind ≠ .registry).map LockedPackage.name).insertionSort (· ≤ ·)

/-- Where the loop starts. The last package of the workspace is the top of the stack. -/
def closureStart (packages : Dict Text LockedPackage) : ClosureState :=
  ⟨((workspaceOf packages).map LockedPackage.name).reverse, [], Dict.empty⟩

/-- What `parse_runtime_lock` makes of a parsed lock. -/
def runtimeLockOf (readers : LockReaders) (parsed : List (Text × Toml)) (target : RuntimeTarget) :
    Except Failure RuntimeLock := do
  let (members, packages) ← readLock readers parsed target
  Imp.require ((workspaceOf packages).length = expectedWorkspaceDistributions) workspaceInventoryInvalid
  Imp.require (members = declaredMembers packages) workspaceMembersInvalid
  let registry ← (closureLoop readers target packages).run (closureStart packages)
  return { target, members, workspace := workspaceOf packages, runtime := sortPackages registry.values }

/-- `parse_runtime_lock`. -/
def parseRuntimeLock (readers : LockReaders) (content : List UInt8) (target : RuntimeTarget) :
    Except Failure RuntimeLock := do
  preflightTomlStructure content
  let parsed ← orRaise (readers.tomlLoads content) lockfileInvalid
  runtimeLockOf readers parsed target

/-! ## Requirements -/

def requirementsInvalid : Failure := .candidate "runtime-requirements-invalid"

/-- The lines of the hashes of a package. -/
def hashLines : List Text → List Text
  | [] => []
  | [digest] => [text "    --hash=sha256:" ++ digest ++ text "\n"]
  | digest :: rest => (text "    --hash=sha256:" ++ digest ++ text " \\\n") :: hashLines rest

/-- The lines of a package. -/
def packageLines (package : LockedPackage) : Except Failure (List Text) := do
  let hashes := (package.wheels.map LockedWheel.sha256).dedup.insertionSort (· ≤ ·)
  Imp.require (hashes ≠ []) requirementsInvalid
  return (package.name ++ text "==" ++ package.version ++ text " \\\n") :: hashLines hashes

/-- `canonical_runtime_requirements`. -/
def canonicalRuntimeRequirements (lock : RuntimeLock) : Except Failure (List UInt8) := do
  let header := [text "# stateweaver-runtime-requirements-v1\n",
    text "# target: implementation=cpython; python_full_version=" ++ lock.target.pythonFullVersion ++
      text "; sys_platform=linux; platform_machine=x86_64\n"]
  let lines ← lock.runtime.mapM packageLines
  orRaise (Py.utf8? (header ++ lines.flatten).flatten) .unicodeEncode

end StateWeaver.Candidate

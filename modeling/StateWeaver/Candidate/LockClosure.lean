import StateWeaver.Candidate.LockOrder

/-!
# The packages that are installed

What `parse_runtime_lock` says of a lock: its runtime packages are the needed ones of the registry, whatever the
cycles among the dependencies and the order of the lock.
-/

namespace StateWeaver.Candidate

open Py (CodePoint Text text)

variable {readers : LockReaders} {target : RuntimeTarget} {packages : Dict Text LockedPackage}

/-! ## Failures before the loop -/

/-- Not the failure of a missing dependency. -/
def IsReadFailure (failure : Failure) : Prop := failure ≠ dependencyMissing

theorem raisesOnly_orRaise {α : Type} {value : Option α} {failure : Failure} (h : IsReadFailure failure) :
    Imp.RaisesOnly IsReadFailure (orRaise value failure) := by
  cases value with
  | none => exact Imp.raisesOnly_error h
  | some a => exact Imp.raisesOnly_ok

theorem isReadFailure_lockfileInvalid : IsReadFailure lockfileInvalid := by
  rw [IsReadFailure]
  decide

theorem raisesOnly_lockfileInvalid {c : Prop} [Decidable c] :
    Imp.RaisesOnly IsReadFailure (Imp.require c lockfileInvalid) :=
  Imp.raisesOnly_require isReadFailure_lockfileInvalid

theorem raisesOnly_canonicalizeName (name : Text) : Imp.RaisesOnly IsReadFailure (canonicalizeName name) :=
  Imp.raisesOnly_bind raisesOnly_lockfileInvalid fun _ _ => Imp.raisesOnly_ok

theorem raisesOnly_wheelOf (item : Toml) : Imp.RaisesOnly IsReadFailure (wheelOf readers item) := by
  have hvalue : IsReadFailure .value := by
    rw [IsReadFailure]
    decide
  exact Imp.raisesOnly_bind (raisesOnly_orRaise isReadFailure_lockfileInvalid) fun _ _ =>
    Imp.raisesOnly_bind (raisesOnly_orRaise isReadFailure_lockfileInvalid) fun _ _ =>
    Imp.raisesOnly_bind (raisesOnly_orRaise isReadFailure_lockfileInvalid) fun _ _ =>
    Imp.raisesOnly_bind (raisesOnly_orRaise hvalue) fun _ _ =>
    Imp.raisesOnly_bind raisesOnly_lockfileInvalid fun _ _ => Imp.raisesOnly_ok

theorem raisesOnly_lockedWheels (raw : Option Toml) (name : Text) :
    Imp.RaisesOnly IsReadFailure (lockedWheels readers raw name) :=
  Imp.raisesOnly_bind (raisesOnly_orRaise isReadFailure_lockfileInvalid) fun _ _ =>
    Imp.raisesOnly_bind raisesOnly_lockfileInvalid fun _ _ =>
    Imp.raisesOnly_bind (Imp.raisesOnly_foldlM fun _ item => Imp.raisesOnly_bind (raisesOnly_wheelOf item) fun _ _ =>
      Imp.raisesOnly_bind raisesOnly_lockfileInvalid fun _ _ => Imp.raisesOnly_ok) fun _ _ =>
    Imp.raisesOnly_bind (Imp.raisesOnly_forEach fun wheel => Imp.raisesOnly_bind
      (raisesOnly_canonicalizeName wheel.filename) fun _ _ => raisesOnly_lockfileInvalid) fun _ _ => Imp.raisesOnly_ok

theorem raisesOnly_dependenciesOf (raw : Option Toml) : Imp.RaisesOnly IsReadFailure (dependenciesOf raw) := by
  cases raw with
  | none => exact Imp.raisesOnly_ok
  | some raw =>
      refine Imp.raisesOnly_bind (raisesOnly_orRaise isReadFailure_lockfileInvalid) fun items _ =>
        Imp.raisesOnly_mapM fun item _ => ?_
      exact Imp.raisesOnly_bind (raisesOnly_orRaise isReadFailure_lockfileInvalid) fun _ _ =>
        Imp.raisesOnly_bind raisesOnly_lockfileInvalid fun _ _ =>
        Imp.raisesOnly_bind (raisesOnly_orRaise isReadFailure_lockfileInvalid) fun _ _ =>
        Imp.raisesOnly_bind raisesOnly_lockfileInvalid fun _ _ =>
        Imp.raisesOnly_bind (raisesOnly_canonicalizeName _) fun _ _ => Imp.raisesOnly_ok

theorem raisesOnly_packageOf (raw : Toml) : Imp.RaisesOnly IsReadFailure (packageOf readers raw) := by
  refine Imp.raisesOnly_bind (raisesOnly_orRaise isReadFailure_lockfileInvalid) fun _ _ =>
    Imp.raisesOnly_bind (raisesOnly_orRaise isReadFailure_lockfileInvalid) fun _ _ =>
    Imp.raisesOnly_bind (raisesOnly_orRaise isReadFailure_lockfileInvalid) fun _ _ =>
    Imp.raisesOnly_bind raisesOnly_lockfileInvalid fun _ _ =>
    Imp.raisesOnly_bind (raisesOnly_orRaise isReadFailure_lockfileInvalid) fun _ _ =>
    Imp.raisesOnly_bind raisesOnly_lockfileInvalid fun _ _ =>
    Imp.raisesOnly_bind (raisesOnly_canonicalizeName _) fun _ _ =>
    Imp.raisesOnly_bind (raisesOnly_orRaise isReadFailure_lockfileInvalid) fun kind _ =>
    Imp.raisesOnly_bind ?_ fun _ _ =>
    Imp.raisesOnly_bind (raisesOnly_dependenciesOf _) fun _ _ => Imp.raisesOnly_ok
  cases kind with
  | registry => exact raisesOnly_lockedWheels _ _
  | _ => exact Imp.raisesOnly_ok

theorem isReadFailure_of_marker (failure : Failure) (h : IsMarkerFailure failure) : IsReadFailure failure := by
  have hboth : ∀ f ∈ [markerUnsupported, Failure.value], f ≠ dependencyMissing := by decide
  rcases h with rfl | rfl
  · exact hboth _ List.mem_cons_self
  · exact hboth _ (List.mem_cons_of_mem _ List.mem_cons_self)

theorem raisesOnly_clausesAllow (versions : List ℕ) (clauses : List Text) :
    Imp.RaisesOnly IsReadFailure (clausesAllow versions clauses) := by
  induction clauses with
  | nil => exact Imp.raisesOnly_ok
  | cons clause clauses ih =>
      rw [clausesAllow]
      cases readClause clause with
      | none => exact Imp.raisesOnly_error isReadFailure_lockfileInvalid
      | some c =>
          refine Imp.raisesOnly_bind (fun f hf => isReadFailure_of_marker f (raisesOnly_versionTuple _ f hf))
            fun _ _ => Imp.raisesOnly_bind (fun f hf => isReadFailure_of_marker f (raisesOnly_compareOrdered _ _ _ f hf))
            fun allowed _ => ?_
          cases allowed with
          | false => exact Imp.raisesOnly_ok
          | true => exact ih

theorem raisesOnly_requiresPythonAllows (value : Option Text) (target : RuntimeTarget) :
    Imp.RaisesOnly IsReadFailure (requiresPythonAllows value target) := by
  cases value with
  | none => exact Imp.raisesOnly_error isReadFailure_lockfileInvalid
  | some value => exact Imp.raisesOnly_bind raisesOnly_lockfileInvalid fun _ _ =>
      Imp.raisesOnly_bind (fun f hf => isReadFailure_of_marker f (raisesOnly_versionTuple _ f hf)) fun _ _ =>
      raisesOnly_clausesAllow _ _

/-- No missing dependency is reported before the loop. -/
theorem raisesOnly_readLock (parsed : List (Text × Toml)) (target : RuntimeTarget) :
    Imp.RaisesOnly IsReadFailure (readLock readers parsed target) := by
  have hambiguity : IsReadFailure packageAmbiguity := by
    rw [IsReadFailure]
    decide
  exact Imp.raisesOnly_bind raisesOnly_lockfileInvalid fun _ _ =>
    Imp.raisesOnly_bind raisesOnly_lockfileInvalid fun _ _ =>
    Imp.raisesOnly_bind (raisesOnly_requiresPythonAllows _ target) fun _ _ =>
    Imp.raisesOnly_bind raisesOnly_lockfileInvalid fun _ _ =>
    Imp.raisesOnly_bind (raisesOnly_orRaise isReadFailure_lockfileInvalid) fun _ _ =>
    Imp.raisesOnly_bind (raisesOnly_orRaise isReadFailure_lockfileInvalid) fun _ _ =>
    Imp.raisesOnly_bind raisesOnly_lockfileInvalid fun _ _ =>
    Imp.raisesOnly_bind (raisesOnly_orRaise isReadFailure_lockfileInvalid) fun _ _ =>
    Imp.raisesOnly_bind (raisesOnly_orRaise isReadFailure_lockfileInvalid) fun _ _ =>
    Imp.raisesOnly_bind (Imp.raisesOnly_mapM fun name _ => raisesOnly_canonicalizeName name) fun _ _ =>
    Imp.raisesOnly_bind raisesOnly_lockfileInvalid fun _ _ =>
    Imp.raisesOnly_bind (Imp.raisesOnly_foldlM fun _ raw => Imp.raisesOnly_bind (raisesOnly_packageOf raw) fun _ _ =>
      Imp.raisesOnly_bind (Imp.raisesOnly_require hambiguity) fun _ _ => Imp.raisesOnly_ok) fun _ _ => Imp.raisesOnly_ok

/-! ## The closure -/

theorem weight_start (packages : Dict Text LockedPackage) :
    (closureLoop readers target packages).variant (closureStart packages) =
      (packages.values.map fun p => p.dependencies.length + 1).sum + (workspaceOf packages).length := by
  have hsizes : (packages.keys.map fun k => dependencyCount packages k + 1) =
      packages.values.map fun p => p.dependencies.length + 1 := by
    rw [Dict.keys, Dict.values, List.map_map, List.map_map]
    refine List.map_congr_left fun e he => ?_
    change dependencyCount packages e.1 + 1 = e.2.dependencies.length + 1
    rw [dependencyCount, Dict.mem_entries.mp he]
    rfl
  change Worklist.weight _ _ _ [] = _
  rw [Worklist.weight_nil, hsizes, closureStart, List.length_reverse, List.length_map]

theorem runtimeLockOf_eq_error {parsed : List (Text × Toml)} {failure : Failure}
    (h : runtimeLockOf readers parsed target = .error failure) (hmissing : failure = dependencyMissing) :
    ∃ members packages, readLock readers parsed target = .ok (members, packages) ∧
      (closureLoop readers target packages).run (closureStart packages) = .error failure := by
  rw [runtimeLockOf] at h
  rcases Imp.except_bind_eq_error.mp h with h | ⟨⟨members, packages⟩, hread, h⟩
  · exact absurd hmissing (raisesOnly_readLock parsed target failure h)
  refine ⟨members, packages, hread, ?_⟩
  rcases Imp.except_bind_eq_error.mp h with h | ⟨-, -, h⟩
  · obtain ⟨-, rfl⟩ := Imp.require_eq_error.mp h
    exact absurd hmissing (by decide)
  rcases Imp.except_bind_eq_error.mp h with h | ⟨-, -, h⟩
  · obtain ⟨-, rfl⟩ := Imp.require_eq_error.mp h
    exact absurd hmissing (by decide)
  rcases Imp.except_bind_eq_error.mp h with h | ⟨registry, -, h⟩
  · exact h
  · cases h

theorem runtimeLockOf_eq_run {parsed : List (Text × Toml)} {members : List Text}
    (hread : readLock readers parsed target = .ok (members, packages))
    (hlength : (workspaceOf packages).length = expectedWorkspaceDistributions)
    (hmembers : members = declaredMembers packages) : runtimeLockOf readers parsed target = (do
      let registry ← (closureLoop readers target packages).run (closureStart packages)
      return ⟨target, members, workspaceOf packages, sortPackages registry.values⟩) := by
  rw [runtimeLockOf, hread]
  change (Imp.require _ _ >>= _) = _
  rw [Imp.require, if_pos hlength]
  change (Imp.require _ _ >>= _) = _
  rw [Imp.require, if_pos hmembers]
  rfl

/-- The needed packages of a lock are the least set with the editable ones that is closed under the dependencies that
apply. The loop that looks for them ends, and the runtime packages are those of the registry among them. A missing
dependency is reported only if a needed package is missing, and then it is reported or a marker that cannot be
evaluated. The order of the lock is that of the dependencies in the result, and nothing else. -/
theorem runtimeLockOf_spec (readers : LockReaders) (target : RuntimeTarget) :
    (∀ packages, ∃ n ≤ (packages.values.map fun p => p.dependencies.length + 1).sum +
        (workspaceOf packages).length + 1, (closureLoop readers target packages).after n (closureStart packages) =
          .inr ((closureLoop readers target packages).run (closureStart packages))) ∧
    (∀ parsed lock, runtimeLockOf readers parsed target = .ok lock → ∃ members packages,
      readLock readers parsed target = .ok (members, packages) ∧
      IsLeast {s : Set Text | (∀ name, IsEditable packages name → name ∈ s) ∧
        ∀ name ∈ s, ∀ name', DependsOn readers target packages name name' → name' ∈ s}
        {name | Needed readers target packages name} ∧
      (∀ p, p ∈ lock.runtime ↔ Needed readers target packages p.name ∧ packages.get? p.name = some p ∧
        p.sourceKind = .registry) ∧
      lock.runtime.Pairwise fun a b => a.name < b.name) ∧
    (∀ parsed, runtimeLockOf readers parsed target = .error dependencyMissing → ∃ members packages,
      readLock readers parsed target = .ok (members, packages) ∧
        ∃ name, Needed readers target packages name ∧ packages.get? name = none) ∧
    (∀ parsed members packages, readLock readers parsed target = .ok (members, packages) →
      (workspaceOf packages).length = expectedWorkspaceDistributions → members = declaredMembers packages →
      ((∃ name, Needed readers target packages name ∧ packages.get? name = none) →
        runtimeLockOf readers parsed target = .error dependencyMissing ∨ ∃ failure,
          HasUnevaluated readers target packages failure ∧
            runtimeLockOf readers parsed target = .error failure) ∧
      ((∃ lock, runtimeLockOf readers parsed target = .ok lock) ↔
        (∀ name, Needed readers target packages name → packages.get? name ≠ none) ∧
          ∀ failure, ¬HasUnevaluated readers target packages failure)) ∧
    ∀ parsed parsed', SameLock parsed parsed' → ∀ lock, runtimeLockOf readers parsed target = .ok lock →
      ∃ lock', runtimeLockOf readers parsed' target = .ok lock' ∧ SameRuntimeLock lock lock' ∧
        canonicalRuntimeRequirements lock' = canonicalRuntimeRequirements lock := by
  refine ⟨fun packages => ?_, fun parsed lock h => ?_, fun parsed h => ?_,
    fun parsed members packages hread hlength hmembers => ?_, fun parsed parsed' hsame lock h => ?_⟩
  · rw [← @weight_start readers target]
    exact Loop.exists_after _ _
  · obtain ⟨members, packages, registry, hread, -, -, hrun, rfl⟩ := runtimeLockOf_eq_ok.mp h
    have hnamed := named_of_readLock hread
    have hends := closureLoop_ends readers target hnamed
    rw [hrun] at hends
    have hregistry := named_of_closureLoop hnamed hrun
    refine ⟨members, packages, hread, Worklist.isLeast_reached, fun p => ?_,
      Arranged.pairwise_insertionSort (nodup_map_values hregistry)⟩
    rw [sortPackages, List.mem_insertionSort, mem_values_iff hregistry, hends.1]
  · obtain ⟨members, packages, hread, hrun⟩ := runtimeLockOf_eq_error h rfl
    have hends := closureLoop_ends readers target (named_of_readLock hread)
    rw [hrun] at hends
    exact ⟨members, packages, hread, (hends.resolve_right not_hasUnevaluated_missing).2⟩
  · have hnamed := named_of_readLock hread
    have hends := closureLoop_ends readers target hnamed
    have hiff := @closureLoop_eq_ok_iff readers target packages hnamed
    rw [runtimeLockOf_eq_run hread hlength hmembers]
    refine ⟨?_, ?_⟩
    · rintro ⟨name, hneeded, hnone⟩
      cases hrun : (closureLoop readers target packages).run (closureStart packages) with
      | ok registry => exact absurd hnone ((hiff.mp ⟨registry, hrun⟩).1 name hneeded)
      | error failure =>
          rw [hrun] at hends
          rcases hends with ⟨rfl, -⟩ | hunevaluated
          · exact Or.inl rfl
          · exact Or.inr ⟨failure, hunevaluated, rfl⟩
    · rw [← hiff]
      constructor
      · rintro ⟨lock, hlock⟩
        obtain ⟨registry, hrun, -⟩ := Imp.except_bind_eq_ok.mp hlock
        exact ⟨registry, hrun⟩
      · rintro ⟨registry, hrun⟩
        rw [hrun]
        exact ⟨_, rfl⟩
  · obtain ⟨lock', h', hlocks⟩ := runtimeLockOf_of_same hsame h
    exact ⟨lock', h', hlocks, canonicalRuntimeRequirements_of_same hlocks⟩

/-- A lockfile is its parsed lock, if it is within the bounds. -/
theorem parseRuntimeLock_eq_ok {content : List UInt8} {lock : RuntimeLock} :
    parseRuntimeLock readers content target = .ok lock ↔ preflightTomlStructure content = .ok () ∧
      ∃ parsed, readers.tomlLoads content = some parsed ∧ runtimeLockOf readers parsed target = .ok lock := by
  rw [parseRuntimeLock, Imp.check_bind_eq_ok, Imp.except_bind_eq_ok]
  exact and_congr_right fun _ => exists_congr fun parsed => and_congr_left' orRaise_eq_ok

namespace Demo

/-- The parsers of the examples: no expression, one URL, and no escapes. -/
def lockReaders : LockReaders where
  parseMarker _ := none
  urlsplit url :=
    if url = text "https://host/x-1.0-py3-none-any.whl" then
      some ⟨text "https", text "/x-1.0-py3-none-any.whl", some (text "host"), none, none, [], []⟩
    else none
  unquote s := s
  tomlLoads _ := none

def tomlText (s : String) : Toml := .scalar (.str (text s))

def dependency (name : String) : Toml := .table [(text "name", tomlText name)]

/-- A package of the workspace. -/
def editablePackage (name : String) (dependencies : List Toml) : Toml :=
  .table [(text "name", tomlText name), (text "version", tomlText "0.1.0"),
    (text "source", .table [(text "editable", tomlText ".")]), (text "dependencies", .array dependencies)]

/-- A package of the registry. -/
def registryPackage : Toml :=
  .table [(text "name", tomlText "x"), (text "version", tomlText "1.0"),
    (text "source", .table [(text "registry", tomlText "https://pypi.org/simple")]),
    (text "wheels", .array [.table [(text "url", tomlText "https://host/x-1.0-py3-none-any.whl"),
      (text "hash", tomlText "sha256:0000000000000000000000000000000000000000000000000000000000000000")]])]

def otherNames : List String :=
  ["c", "d", "e", "f", "g", "h", "i", "j", "k", "l", "m", "n", "o", "p", "q", "r"]

/-- A lock of eighteen packages of the workspace, of which the first two have dependencies, and one of the registry. -/
def lockOf (first second : List Toml) : List (Text × Toml) :=
  [(text "version", .scalar (.int 1)), (text "revision", .scalar (.int 3)), (text "requires-python", tomlText ">=3.13"),
    (text "manifest", .table [(text "members", .array (("a" :: "b" :: otherNames).map tomlText))]),
    (text "package", .array (editablePackage "a" first :: editablePackage "b" second :: registryPackage ::
      otherNames.map fun name => editablePackage name []))]

/-- Two packages of the workspace that depend on each other. -/
def cyclic : List (Text × Toml) := lockOf [dependency "b", dependency "x"] [dependency "a"]

/-- The same lock with two dependencies in the other order. -/
def swapped : List (Text × Toml) := lockOf [dependency "x", dependency "b"] [dependency "a"]

/-- A dependency that is not there, and a marker that is no expression. -/
def incomplete : List (Text × Toml) :=
  lockOf [dependency "y"] [.table [(text "name", tomlText "x"), (text "marker", tomlText "?")]]

/-- A dependency that is not there. -/
def missing : List (Text × Toml) := lockOf [dependency "y"] []

theorem lockTarget_valid : isPythonFullVersion (text "3.13.0") = true := by decide +kernel

def lockTarget : RuntimeTarget := ⟨text "3.13.0", lockTarget_valid⟩

/-- What the loop makes of a lock that is read in full, in thirty passes. -/
def loopOf (parsed : List (Text × Toml)) : Option (Except Failure (Dict Text LockedPackage)) :=
  match readLock lockReaders parsed lockTarget with
  | .ok (members, packages) =>
      if (workspaceOf packages).length = expectedWorkspaceDistributions ∧ members = declaredMembers packages then
        ((closureLoop lockReaders lockTarget packages).after 30 (closureStart packages)).getRight?
      else none
  | .error _ => none

theorem run_of_loopOf {parsed : List (Text × Toml)} {result : Except Failure (Dict Text LockedPackage)}
    (h : loopOf parsed = some result) : ∃ members packages,
      readLock lockReaders parsed lockTarget = .ok (members, packages) ∧
      (workspaceOf packages).length = expectedWorkspaceDistributions ∧ members = declaredMembers packages ∧
      (closureLoop lockReaders lockTarget packages).run (closureStart packages) = result := by
  rw [loopOf] at h
  split at h
  · next members packages hread =>
      split at h
      · next hboth =>
          exact ⟨members, packages, hread, hboth.1, hboth.2, Loop.run_of_after (Sum.getRight?_eq_some_iff.mp h)⟩
      · cases h
  · cases h

/-- The failure of the loop is that of the lock. -/
theorem runtimeLockOf_of_loopOf {parsed : List (Text × Toml)} {failure : Failure}
    (h : loopOf parsed = some (.error failure)) : runtimeLockOf lockReaders parsed lockTarget = .error failure := by
  obtain ⟨members, packages, hread, hlength, hmembers, hrun⟩ := run_of_loopOf h
  rw [runtimeLockOf_eq_run hread hlength hmembers, hrun]
  rfl

theorem lookup_lockOf {first second first' second' : List Toml} {key : Text} (h : key ≠ text "package") :
    (lockOf first' second').lookup key = (lockOf first second).lookup key := by
  simp only [lockOf, List.lookup_cons, beq_eq_false_iff_ne.mpr h]

theorem sameLock_swapped : SameLock cyclic swapped where
  get key h := lookup_lockOf h
  packages := by
    refine ⟨_, _, _, rfl, rfl, .refl _, .cons ?_ (List.forall₂_same.mpr fun raw _ => .refl raw)⟩
    refine .table rfl (fun key hdependencies _ => ?_) (Or.inr ⟨_, _, rfl, rfl, .swap _ _ _⟩) (Or.inl rfl)
    simp only [List.lookup_cons, beq_eq_false_iff_ne.mpr hdependencies]

/-- The runtime packages of the lock with a cycle. -/
theorem loopOf_cyclic : (loopOf cyclic).map (fun result => result.toOption.map Dict.keys) = some (some [text "x"]) := by
  decide +kernel

theorem loopOf_missing : loopOf missing = some (.error dependencyMissing) := by decide +kernel

theorem loopOf_incomplete : loopOf incomplete = some (.error markerUnsupported) := by decide +kernel

/-- The dependencies of the first package of the workspace. -/
def firstDependencies (packages : Dict Text LockedPackage) : Option (List LockedDependency) :=
  (workspaceOf packages).head?.map LockedPackage.dependencies

theorem firstDependencies_ne : ∀ a ∈ (readLock lockReaders cyclic lockTarget).toOption,
    ∀ b ∈ (readLock lockReaders swapped lockTarget).toOption, firstDependencies a.2 ≠ firstDependencies b.2 := by
  decide +kernel

/-- The first package of the workspace depends on what is not there. -/
theorem incomplete_packages : ∀ a ∈ (readLock lockReaders incomplete lockTarget).toOption,
    (a.2.get? (text "a")).map (fun p => (p.sourceKind, p.dependencies)) =
      some (.editable, [⟨text "y", none⟩]) ∧ a.2.get? (text "y") = none := by
  decide +kernel

theorem exists_registry : ∃ registry, loopOf cyclic = some (.ok registry) ∧ registry.keys = [text "x"] := by
  obtain ⟨result, hresult, hkeys⟩ := Option.map_eq_some_iff.mp loopOf_cyclic
  cases result with
  | error failure => cases hkeys
  | ok registry => exact ⟨registry, hresult, Option.some.inj hkeys⟩

end Demo

theorem runtimeLockOf_spec_cyclic :
    (∃ lock lock', runtimeLockOf Demo.lockReaders Demo.cyclic Demo.lockTarget = .ok lock ∧
      lock.runtime.map LockedPackage.name = [text "x"] ∧
      runtimeLockOf Demo.lockReaders Demo.swapped Demo.lockTarget = .ok lock' ∧
      canonicalRuntimeRequirements lock' = canonicalRuntimeRequirements lock) ∧
    ∃ packages name, Needed Demo.lockReaders Demo.lockTarget packages name ∧ packages.get? name = none := by
  obtain ⟨-, hclosure, hmissing, hexact, horder⟩ := runtimeLockOf_spec Demo.lockReaders Demo.lockTarget
  constructor
  · obtain ⟨registry, hloop, hkeys⟩ := Demo.exists_registry
    obtain ⟨members, packages, hread, hlength, hmembers, hrun⟩ := Demo.run_of_loopOf hloop
    have hok := (hexact _ _ _ hread hlength hmembers).2.mpr
      ((closureLoop_eq_ok_iff (named_of_readLock hread)).mp ⟨registry, hrun⟩)
    obtain ⟨lock, hlock⟩ := hok
    obtain ⟨lock', hlock', -, hrequirements⟩ := horder _ _ Demo.sameLock_swapped lock hlock
    refine ⟨lock, lock', hlock, ?_, hlock', hrequirements⟩
    rw [runtimeLockOf_eq_run hread hlength hmembers, hrun] at hlock
    cases hlock
    have hnames : registry.values.map LockedPackage.name = [text "x"] := by
      rw [← hkeys, Dict.values, Dict.keys, List.map_map]
      exact List.map_congr_left fun e he =>
        named_of_closureLoop (named_of_readLock hread) hrun e.1 e.2 (Dict.mem_entries.mp he)
    have hperm := (List.perm_insertionSort (fun a b : LockedPackage => a.name ≤ b.name) registry.values).map
      LockedPackage.name
    rw [hnames] at hperm
    exact List.perm_singleton.mp hperm
  · obtain ⟨members, packages, -, name, hneeded⟩ :=
      hmissing _ (Demo.runtimeLockOf_of_loopOf Demo.loopOf_missing)
    exact ⟨packages, name, hneeded⟩

/-- The dependencies of a package come in the order of the lock, and a needed package that is missing is not reported
if a marker is evaluated before that is no expression. -/
theorem runtimeLockOf_counterexample :
    (SameLock Demo.cyclic Demo.swapped ∧ ∃ lock lock',
      runtimeLockOf Demo.lockReaders Demo.cyclic Demo.lockTarget = .ok lock ∧
      runtimeLockOf Demo.lockReaders Demo.swapped Demo.lockTarget = .ok lock' ∧ lock ≠ lock') ∧
    ∃ members packages, readLock Demo.lockReaders Demo.incomplete Demo.lockTarget = .ok (members, packages) ∧
      Needed Demo.lockReaders Demo.lockTarget packages (text "y") ∧ packages.get? (text "y") = none ∧
        runtimeLockOf Demo.lockReaders Demo.incomplete Demo.lockTarget = .error markerUnsupported := by
  constructor
  · obtain ⟨registry, hloop, -⟩ := Demo.exists_registry
    obtain ⟨members, packages, hread, hlength, hmembers, hrun⟩ := Demo.run_of_loopOf hloop
    have hlock := runtimeLockOf_eq_ok.mpr ⟨members, packages, registry, hread, hlength, hmembers, hrun, rfl⟩
    obtain ⟨lock', hlock', -⟩ := runtimeLockOf_of_same Demo.sameLock_swapped hlock
    refine ⟨Demo.sameLock_swapped, _, lock', hlock, hlock', ?_⟩
    obtain ⟨members', packages', registry', hread', -, -, -, rfl⟩ := runtimeLockOf_eq_ok.mp hlock'
    intro heq
    refine Demo.firstDependencies_ne _ (Imp.toOption_eq_some.mpr hread) _ (Imp.toOption_eq_some.mpr hread') ?_
    exact congrArg (fun l : List LockedPackage => l.head?.map LockedPackage.dependencies)
      (congrArg RuntimeLock.workspace heq)
  · obtain ⟨members, packages, hread, -⟩ := Demo.run_of_loopOf Demo.loopOf_incomplete
    obtain ⟨hfirst, hnone⟩ := Demo.incomplete_packages _ (Imp.toOption_eq_some.mpr hread)
    obtain ⟨package, hget, hpackage⟩ := Option.map_eq_some_iff.mp hfirst
    obtain ⟨hkind, hdependencies⟩ := Prod.mk.inj hpackage
    refine ⟨members, packages, hread, (Worklist.Reached.root ⟨package, hget, hkind⟩).edge ?_, hnone,
      Demo.runtimeLockOf_of_loopOf Demo.loopOf_incomplete⟩
    refine ⟨package, hget, ⟨text "y", none⟩, ?_, rfl, Or.inl rfl⟩
    rw [hdependencies]
    exact List.mem_cons_self

end StateWeaver.Candidate

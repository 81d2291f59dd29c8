import StateWeaver.Candidate.RuntimeLock

/-!
# What the worklist finds

The loop ends on every lock. The packages it returns are those of the registry among the packages that are needed:
the least set with the editable packages that is closed under the dependencies that apply. It fails on a needed
package that the lock does not have, and on a marker of a needed package that cannot be evaluated, and on nothing
else.
-/

namespace StateWeaver.Candidate

open Py (CodePoint Text text)
open Worklist (Reached Explores)

variable {readers : LockReaders} {target : RuntimeTarget} {packages : Dict Text LockedPackage}

/-! ## Needed packages -/

/-- A package of the workspace that is installed from its source. -/
def IsEditable (packages : Dict Text LockedPackage) (name : Text) : Prop :=
  ∃ package, packages.get? name = some package ∧ package.sourceKind = .editable

/-- A package has a dependency without a marker, or with a marker that is true for the target. -/
def DependsOn (readers : LockReaders) (target : RuntimeTarget) (packages : Dict Text LockedPackage)
    (name name' : Text) : Prop :=
  ∃ package, packages.get? name = some package ∧ ∃ dependency ∈ package.dependencies,
    dependency.name = name' ∧ (dependency.marker = none ∨
      ∃ marker, dependency.marker = some marker ∧ evaluateMarker readers.parseMarker marker target = .ok true)

/-- The least set with the editable packages that is closed under the dependencies that apply. -/
def Needed (readers : LockReaders) (target : RuntimeTarget) (packages : Dict Text LockedPackage) : Text → Prop :=
  Reached (IsEditable packages) (DependsOn readers target packages)

theorem applies_eq_ok_true {dependency : LockedDependency} : dependency.applies readers target = .ok true ↔
    dependency.marker = none ∨
      ∃ marker, dependency.marker = some marker ∧ evaluateMarker readers.parseMarker marker target = .ok true := by
  rw [LockedDependency.applies]
  cases dependency.marker with
  | none => exact iff_of_true rfl (Or.inl rfl)
  | some marker =>
      constructor
      · exact fun h => Or.inr ⟨marker, rfl, h⟩
      · rintro (h | ⟨marker', h, htrue⟩)
        · cases h
        · cases h
          exact htrue

/-- A needed package has a dependency whose marker cannot be evaluated. -/
def HasUnevaluated (readers : LockReaders) (target : RuntimeTarget) (packages : Dict Text LockedPackage)
    (failure : Failure) : Prop :=
  ∃ name package, Needed readers target packages name ∧ packages.get? name = some package ∧
    ∃ dependency ∈ package.dependencies, ∃ marker, dependency.marker = some marker ∧
      evaluateMarker readers.parseMarker marker target = .error failure

theorem applies_eq_error {dependency : LockedDependency} {failure : Failure} :
    dependency.applies readers target = .error failure ↔
      ∃ marker, dependency.marker = some marker ∧
        evaluateMarker readers.parseMarker marker target = .error failure := by
  rw [LockedDependency.applies]
  cases dependency.marker with
  | none => exact iff_of_false nofun (by rintro ⟨_, h, -⟩; cases h)
  | some marker =>
      constructor
      · exact fun h => ⟨marker, rfl, h⟩
      · rintro ⟨marker', h, herror⟩
        cases h
        exact herror

/-! ## The dependencies of a package -/

/-- What a package puts on the list. -/
theorem followed_eq_ok {dependencies : List LockedDependency} {names : List Text}
    (h : followed readers target packages dependencies = .ok names) :
    (∀ name, name ∈ names ↔ ∃ d ∈ dependencies, d.name = name ∧ d.applies readers target = .ok true) ∧
      (∀ name ∈ names, packages.contains name = true) ∧
        ∀ d ∈ dependencies, ∃ applies, d.applies readers target = .ok applies := by
  induction dependencies generalizing names with
  | nil =>
      cases h
      refine ⟨fun name => iff_of_false List.not_mem_nil ?_, List.forall_mem_nil _, List.forall_mem_nil _⟩
      rintro ⟨_, hmem, -⟩
      cases hmem
  | cons d rest ih =>
      obtain ⟨applies, happlies, h⟩ := Imp.except_bind_eq_ok.mp h
      cases applies with
      | false =>
          obtain ⟨hnames, hcontains, hevaluated⟩ := ih h
          refine ⟨fun name => ?_, hcontains, List.forall_mem_cons.mpr ⟨⟨false, happlies⟩, hevaluated⟩⟩
          rw [hnames, List.exists_mem_cons_iff, happlies]
          simp
      | true =>
          obtain ⟨hcontained, h⟩ := Imp.check_bind_eq_ok.mp h
          rw [Imp.require_eq_ok] at hcontained
          obtain ⟨names', hrest, h⟩ := Imp.except_bind_eq_ok.mp h
          cases h
          obtain ⟨hnames, hcontains, hevaluated⟩ := ih hrest
          refine ⟨fun name => ?_, List.forall_mem_cons.mpr ⟨hcontained, hcontains⟩,
            List.forall_mem_cons.mpr ⟨⟨true, happlies⟩, hevaluated⟩⟩
          rw [List.mem_cons, hnames, List.exists_mem_cons_iff, happlies]
          simp [eq_comm]

/-- Why the dependencies of a package cannot be followed. -/
theorem followed_eq_error {dependencies : List LockedDependency} {failure : Failure}
    (h : followed readers target packages dependencies = .error failure) :
    (failure = dependencyMissing ∧ ∃ d ∈ dependencies, d.applies readers target = .ok true ∧
      packages.get? d.name = none) ∨ ∃ d ∈ dependencies, d.applies readers target = .error failure := by
  induction dependencies with
  | nil => cases h
  | cons d rest ih =>
      have hlater : followed readers target packages rest = .error failure →
          (failure = dependencyMissing ∧ ∃ d' ∈ d :: rest, d'.applies readers target = .ok true ∧
            packages.get? d'.name = none) ∨ ∃ d' ∈ d :: rest, d'.applies readers target = .error failure := by
        intro h
        refine (ih h).imp (And.imp_right ?_) ?_
        · rintro ⟨d', hmem, hd'⟩
          exact ⟨d', List.mem_cons_of_mem d hmem, hd'⟩
        · rintro ⟨d', hmem, hd'⟩
          exact ⟨d', List.mem_cons_of_mem d hmem, hd'⟩
      rcases Imp.except_bind_eq_error.mp h with h | ⟨applies, happlies, h⟩
      · exact Or.inr ⟨d, List.mem_cons_self, h⟩
      cases applies with
      | false => exact hlater h
      | true =>
          rcases Imp.except_bind_eq_error.mp h with h | ⟨-, -, h⟩
          · obtain ⟨hmissing, hfailure⟩ := Imp.require_eq_error.mp h
            rw [Bool.not_eq_true, Dict.contains_eq_false] at hmissing
            exact Or.inl ⟨hfailure, d, List.mem_cons_self, happlies, hmissing⟩
          · rcases Imp.except_bind_eq_error.mp h with h | ⟨names, -, h⟩
            · exact hlater h
            · cases h

/-! ## The loop -/

/-- What holds whenever the loop looks at its list. -/
structure ClosureInvariant (readers : LockReaders) (target : RuntimeTarget) (packages : Dict Text LockedPackage)
    (s : ClosureState) : Prop where
  explores : Explores (IsEditable packages) (DependsOn readers target packages) s.pending s.visited
  evaluated : ∀ name ∈ s.visited, ∃ package, packages.get? name = some package ∧
    ∀ d ∈ package.dependencies, ∃ applies, d.applies readers target = .ok applies
  registry : ∀ name package, s.registry.get? name = some package ↔
    name ∈ s.visited ∧ packages.get? name = some package ∧ package.sourceKind = .registry

/-- What the loop ends with. -/
def ClosureEnds (readers : LockReaders) (target : RuntimeTarget) (packages : Dict Text LockedPackage) :
    Except Failure (Dict Text LockedPackage) → Prop
  | .ok registry =>
      (∀ name package, registry.get? name = some package ↔
        Needed readers target packages name ∧ packages.get? name = some package ∧ package.sourceKind = .registry) ∧
      ∀ name, Needed readers target packages name → ∃ package, packages.get? name = some package ∧
        ∀ d ∈ package.dependencies, ∃ applies, d.applies readers target = .ok applies
  | .error failure =>
      (failure = dependencyMissing ∧ ∃ name, Needed readers target packages name ∧ packages.get? name = none) ∨
        HasUnevaluated readers target packages failure

theorem dependsOn_iff {name : Text} {package : LockedPackage} (hget : packages.get? name = some package)
    {names : List Text} (h : followed readers target packages package.dependencies = .ok names) (name' : Text) :
    DependsOn readers target packages name name' ↔ name' ∈ names := by
  rw [(followed_eq_ok h).1]
  constructor
  · rintro ⟨package', hget', d, hd, hname, happlies⟩
    cases hget.symm.trans hget'
    exact ⟨d, hd, hname, applies_eq_ok_true.mpr happlies⟩
  · rintro ⟨d, hd, hname, happlies⟩
    exact ⟨package, hget, d, hd, hname, applies_eq_ok_true.mp happlies⟩

/-- One pass through the loop. -/
theorem ClosureInvariant.step {s s' : ClosureState} (h : ClosureInvariant readers target packages s)
    (hstep : closureBody readers target packages s = .inl s') : ClosureInvariant readers target packages s' := by
  obtain ⟨pending, visited, registry⟩ := s
  obtain ⟨hexplores, hevaluated, hregistry⟩ := h
  cases pending with
  | nil => cases hstep
  | cons name rest =>
      simp only [closureBody] at hstep
      by_cases hvisited : name ∈ visited
      · rw [if_pos hvisited] at hstep
        cases hstep
        exact ⟨hexplores.skip hvisited, hevaluated, hregistry⟩
      rw [if_neg hvisited] at hstep
      cases hget : packages.get? name with
      | none =>
          rw [hget] at hstep
          cases hstep
      | some package =>
          rw [hget] at hstep
          cases hnames : followed readers target packages package.dependencies with
          | error failure =>
              simp only [hnames] at hstep
              cases hstep
          | ok names =>
              simp only [hnames] at hstep
              cases hstep
              refine ⟨hexplores.visit (dependsOn_iff hget hnames), List.forall_mem_cons.mpr
                ⟨⟨package, hget, (followed_eq_ok hnames).2.2⟩, hevaluated⟩, fun name' package' => ?_⟩
              rw [List.mem_cons]
              by_cases hname : name' = name
              · -- the package that is expanded was in no registry before
                subst hname
                have hfresh : registry.get? name' ≠ some package' := fun hin => hvisited ((hregistry _ _).mp hin).1
                dsimp only
                split
                · next hkind =>
                    rw [Dict.get?_insert_self, hget, Option.some.injEq]
                    constructor
                    · rintro rfl
                      exact ⟨Or.inl rfl, rfl, hkind⟩
                    · exact fun hboth => hboth.2.1
                · next hkind =>
                    refine iff_of_false hfresh fun hboth => hkind ?_
                    rw [hget, Option.some.injEq] at hboth
                    exact hboth.2.1 ▸ hboth.2.2
              · have hsame : (if package.sourceKind = .registry then registry.insert name package
                    else registry).get? name' = registry.get? name' := by
                  split
                  · exact Dict.get?_insert_of_ne registry hname package
                  · rfl
                dsimp only
                rw [hsame, hregistry, or_iff_right hname]

theorem ClosureInvariant.ends {s : ClosureState} (h : ClosureInvariant readers target packages s)
    {result : Except Failure (Dict Text LockedPackage)}
    (hend : closureBody readers target packages s = .inr result) : ClosureEnds readers target packages result := by
  obtain ⟨pending, visited, registry⟩ := s
  obtain ⟨hexplores, hevaluated, hregistry⟩ := h
  cases pending with
  | nil =>
      cases hend
      refine ⟨fun name package => ?_, fun name hneeded => hevaluated name (hexplores.mem_iff.mpr hneeded)⟩
      rw [hregistry]
      exact and_congr_left' hexplores.mem_iff
  | cons name rest =>
      have hneeded : Needed readers target packages name := hexplores.sound name (Or.inl List.mem_cons_self)
      simp only [closureBody] at hend
      by_cases hvisited : name ∈ visited
      · rw [if_pos hvisited] at hend
        cases hend
      rw [if_neg hvisited] at hend
      cases hget : packages.get? name with
      | none =>
          rw [hget] at hend
          cases hend
          exact Or.inl ⟨rfl, name, hneeded, hget⟩
      | some package =>
          rw [hget] at hend
          cases hnames : followed readers target packages package.dependencies with
          | ok names =>
              simp only [hnames] at hend
              cases hend
          | error failure =>
              simp only [hnames] at hend
              cases hend
              rcases followed_eq_error hnames with ⟨hfailure, d, hd, happlies, hmissing⟩ | ⟨d, hd, herror⟩
              · refine Or.inl ⟨hfailure, d.name, hneeded.edge ?_, hmissing⟩
                exact ⟨package, hget, d, hd, rfl, applies_eq_ok_true.mp happlies⟩
              · exact Or.inr ⟨name, package, hneeded, hget, d, hd, applies_eq_error.mp herror⟩

/-- Packages are listed under their names. -/
def Named (packages : Dict Text LockedPackage) : Prop :=
  ∀ name package, packages.get? name = some package → package.name = name

theorem mem_workspaceOf {package : LockedPackage} (hnamed : Named packages) :
    package ∈ workspaceOf packages ↔ packages.get? package.name = some package ∧ package.sourceKind = .editable := by
  rw [workspaceOf, sortPackages, List.mem_insertionSort, List.mem_filter, decide_eq_true_eq, Dict.mem_values]
  refine and_congr_left fun _ => ⟨?_, fun h => ⟨_, Dict.mem_entries.mpr h⟩⟩
  rintro ⟨name, hmem⟩
  have hget := Dict.mem_entries.mp hmem
  rw [hnamed name package hget]
  exact hget

theorem closureInvariant_start (hnamed : Named packages) :
    ClosureInvariant readers target packages (closureStart packages) where
  explores := Explores.start fun name => by
    rw [closureStart, List.mem_reverse, List.mem_map]
    constructor
    · rintro ⟨package, hget, hkind⟩
      obtain rfl := hnamed name package hget
      exact ⟨package, (mem_workspaceOf hnamed).mpr ⟨hget, hkind⟩, rfl⟩
    · rintro ⟨package, hpackage, rfl⟩
      exact ⟨package, (mem_workspaceOf hnamed).mp hpackage⟩
  evaluated := List.forall_mem_nil _
  registry name package := by
    rw [closureStart, Dict.get?_empty]
    exact iff_of_false nofun fun h => List.not_mem_nil h.1

/-- What the whole loop ends with. -/
theorem closureLoop_ends (readers : LockReaders) (target : RuntimeTarget) (hnamed : Named packages) :
    ClosureEnds readers target packages ((closureLoop readers target packages).run (closureStart packages)) :=
  Loop.run_invariant (P := ClosureInvariant readers target packages) (closureInvariant_start hnamed)
    (fun _ _ h hstep => h.step hstep) fun _ _ h hend => h.ends hend

/-! ## What markers raise -/

/-- What the evaluation of a marker raises. -/
def IsMarkerFailure (failure : Failure) : Prop := failure = markerUnsupported ∨ failure = .value

theorem raisesOnly_versionTuple (value : Text) : Imp.RaisesOnly IsMarkerFailure (versionTuple value) :=
  Imp.raisesOnly_bind (Imp.raisesOnly_require (Or.inl rfl)) fun _ _ =>
    Imp.raisesOnly_bind (Imp.raisesOnly_require (Or.inr rfl)) fun _ _ => Imp.raisesOnly_ok

theorem raisesOnly_compareOrdered {α : Type} [LinearOrder α] (left : α) (operator : CmpOp) (right : α) :
    Imp.RaisesOnly IsMarkerFailure (compareOrdered left operator right) := by
  cases operator <;> first | exact Imp.raisesOnly_ok | exact Imp.raisesOnly_error (Or.inl rfl)

theorem raisesOnly_compareValues (left : Text) (operator : CmpOp) (right : Text) (versioned : Bool) :
    Imp.RaisesOnly IsMarkerFailure (compareValues left operator right versioned) := by
  have hordered : Imp.RaisesOnly IsMarkerFailure (do
      if versioned then compareOrdered (← versionTuple left) operator (← versionTuple right)
      else compareOrdered left operator right) := by
    cases versioned with
    | false => exact raisesOnly_compareOrdered left operator right
    | true => exact Imp.raisesOnly_bind (raisesOnly_versionTuple left) fun a _ =>
        Imp.raisesOnly_bind (raisesOnly_versionTuple right) fun b _ => raisesOnly_compareOrdered a operator b
  cases operator with
  | isIn => exact Imp.raisesOnly_ok
  | notIn => exact Imp.raisesOnly_ok
  | _ => exact hordered

theorem raisesOnly_markerOperand (environment : Environment) (e : Expr) :
    Imp.RaisesOnly IsMarkerFailure (markerOperand environment e) := by
  cases e with
  | name id =>
      rw [markerOperand]
      cases environment.lookup id with
      | none => exact Imp.raisesOnly_error (Or.inl rfl)
      | some value => exact Imp.raisesOnly_ok
  | constant value => exact Imp.raisesOnly_ok
  | _ => exact Imp.raisesOnly_error (Or.inl rfl)

theorem raisesOnly_compareChain (environment : Environment) (comparisons : List (CmpOp × Expr)) :
    ∀ left result, Imp.RaisesOnly IsMarkerFailure (compareChain environment left result comparisons) := by
  induction comparisons with
  | nil => exact fun _ _ => Imp.raisesOnly_ok
  | cons c comparisons ih =>
      intro left result
      refine Imp.raisesOnly_bind (raisesOnly_markerOperand environment c.2) fun right _ =>
        Imp.raisesOnly_bind ?_ fun _ _ => ih _ _
      cases result with
      | false => exact Imp.raisesOnly_ok
      | true => exact raisesOnly_compareValues _ _ _ _

mutual

theorem raisesOnly_evaluateMarkerNode (environment : Environment) :
    ∀ e, Imp.RaisesOnly IsMarkerFailure (evaluateMarkerNode environment e)
  | .boolOp _ values => by
      rw [evaluateMarkerNode]
      exact Imp.raisesOnly_bind (raisesOnly_evaluateMarkerNodes environment values) fun _ _ => Imp.raisesOnly_ok
  | .unaryNot operand => by
      rw [evaluateMarkerNode]
      exact Imp.raisesOnly_bind (raisesOnly_evaluateMarkerNode environment operand) fun _ _ => Imp.raisesOnly_ok
  | .compare left comparisons => by
      rw [evaluateMarkerNode]
      exact Imp.raisesOnly_bind (raisesOnly_markerOperand environment left) fun _ _ =>
        raisesOnly_compareChain environment comparisons _ _
  | .name _ => by
      rw [evaluateMarkerNode]
      · exact Imp.raisesOnly_error (Or.inl rfl)
      all_goals exact nofun
  | .constant _ => by
      rw [evaluateMarkerNode]
      · exact Imp.raisesOnly_error (Or.inl rfl)
      all_goals exact nofun
  | .other => by
      rw [evaluateMarkerNode]
      · exact Imp.raisesOnly_error (Or.inl rfl)
      all_goals exact nofun

theorem raisesOnly_evaluateMarkerNodes (environment : Environment) :
    ∀ values, Imp.RaisesOnly IsMarkerFailure (evaluateMarkerNodes environment values)
  | [] => Imp.raisesOnly_ok
  | e :: rest => by
      rw [evaluateMarkerNodes]
      exact Imp.raisesOnly_bind (raisesOnly_evaluateMarkerNode environment e) fun _ _ =>
        Imp.raisesOnly_bind (raisesOnly_evaluateMarkerNodes environment rest) fun _ _ => Imp.raisesOnly_ok

end

theorem raisesOnly_evaluateMarker (parse : Text → Option Expr) (marker : Text) (target : RuntimeTarget) :
    Imp.RaisesOnly IsMarkerFailure (evaluateMarker parse marker target) := by
  refine Imp.raisesOnly_bind (Imp.raisesOnly_require (Or.inl rfl)) fun _ _ => ?_
  cases parse marker with
  | none => exact Imp.raisesOnly_error (Or.inl rfl)
  | some parsed => exact raisesOnly_evaluateMarkerNode _ parsed

/-- A missing dependency is not reported for a marker. -/
theorem not_hasUnevaluated_missing : ¬HasUnevaluated readers target packages dependencyMissing := by
  rintro ⟨name, package, -, -, d, -, marker, -, herror⟩
  have hnot : ¬IsMarkerFailure dependencyMissing := by rw [IsMarkerFailure]; decide
  exact hnot (raisesOnly_evaluateMarker _ _ _ _ herror)

end StateWeaver.Candidate

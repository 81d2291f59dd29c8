import StateWeaver.Candidate.RuntimeClosure
import StateWeaver.Lib.Arranged

/-!
# The order of a lock

A lock is read into packages by their names, so the order of its packages does not matter, and that of the wheels of
a package does not either. The dependencies of a package are kept in their order, which is all that two orders of
one lock differ in (`SameRuntimeLock`).
-/

namespace StateWeaver.Candidate

open Py (CodePoint Text text)
open Worklist (Reached Explores)

variable {readers : LockReaders} {target : RuntimeTarget} {packages packages' : Dict Text LockedPackage}

/-! ## Reading packages -/

theorem addPackage_eq_ok {d d' : Dict Text LockedPackage} {raw : Toml} : addPackage readers d raw = .ok d' ↔
    ∃ package, packageOf readers raw = .ok package ∧ d.get? package.name = none ∧
      d' = d.insert package.name package := by
  rw [addPackage, Imp.except_bind_eq_ok]
  refine exists_congr fun package => and_congr_right fun _ => ?_
  rw [Imp.check_bind_eq_ok, Imp.require_eq_ok]
  exact and_congr_right fun _ => ⟨fun h => (Except.ok.inj h).symm, fun h => congrArg Except.ok h.symm⟩

/-- The packages are those of the lock, one under each name. -/
theorem foldlM_addPackage_eq_ok {l : List Toml} {d d' : Dict Text LockedPackage} :
    l.foldlM (addPackage readers) d = .ok d' ↔ ∃ read, l.mapM (packageOf readers) = .ok read ∧
      (d.keys ++ read.map LockedPackage.name).Nodup ∧ d'.entries = d.entries ++ read.map fun p => (p.name, p) := by
  induction l generalizing d with
  | nil =>
      constructor
      · intro h
        obtain rfl := Except.ok.inj h
        refine ⟨[], rfl, ?_, (List.append_nil _).symm⟩
        rw [List.map_nil, List.append_nil]
        exact d.nodup
      · rintro ⟨read, hread, -, hentries⟩
        obtain rfl : [] = read := Except.ok.inj hread
        rw [List.map_nil, List.append_nil] at hentries
        exact congrArg Except.ok (Dict.ext hentries.symm)
  | cons raw l ih =>
      rw [List.foldlM_cons, Imp.except_bind_eq_ok]
      constructor
      · rintro ⟨d₁, hadd, h⟩
        obtain ⟨package, hpackage, hfresh, rfl⟩ := addPackage_eq_ok.mp hadd
        obtain ⟨read, hread, hnodup, hentries⟩ := ih.mp h
        rw [Dict.keys, Dict.entries_insert_of_get?_none hfresh, List.map_append, List.append_assoc] at hnodup
        rw [Dict.entries_insert_of_get?_none hfresh, List.append_assoc] at hentries
        exact ⟨package :: read, Imp.mapM_cons_eq_ok.mpr ⟨package, hpackage, read, hread, rfl⟩, hnodup, hentries⟩
      · rintro ⟨read, hread, hnodup, hentries⟩
        obtain ⟨package, hpackage, rest, hrest, rfl⟩ := Imp.mapM_cons_eq_ok.mp hread
        have hfresh : d.get? package.name = none := Dict.not_mem_keys.mp fun hmem =>
          (List.nodup_append.mp hnodup).2.2 _ hmem _ List.mem_cons_self rfl
        refine ⟨_, addPackage_eq_ok.mpr ⟨package, hpackage, hfresh, rfl⟩, ih.mpr ⟨rest, hrest, ?_, ?_⟩⟩
        · rw [Dict.keys, Dict.entries_insert_of_get?_none hfresh, List.map_append, List.append_assoc]
          exact hnodup
        · rw [Dict.entries_insert_of_get?_none hfresh, List.append_assoc]
          exact hentries

/-- What is read of a lock. -/
theorem get?_of_foldlM_addPackage {l : List Toml} (h : l.foldlM (addPackage readers) Dict.empty = .ok packages)
    (name : Text) (package : LockedPackage) : packages.get? name = some package ↔
      package.name = name ∧ ∃ raw ∈ l, packageOf readers raw = .ok package := by
  obtain ⟨read, hread, -, hentries⟩ := foldlM_addPackage_eq_ok.mp h
  rw [← Dict.mem_entries, hentries]
  change _ ∈ [] ++ _ ↔ _
  rw [List.nil_append, List.mem_map, ← Imp.mem_of_mapM hread]
  constructor
  · rintro ⟨p, hp, heq⟩
    obtain ⟨rfl, rfl⟩ := Prod.mk.inj heq
    exact ⟨rfl, hp⟩
  · rintro ⟨rfl, hp⟩
    exact ⟨package, hp, rfl⟩

theorem named_of_foldlM_addPackage {l : List Toml} (h : l.foldlM (addPackage readers) Dict.empty = .ok packages) :
    Named packages := fun name package hget => ((get?_of_foldlM_addPackage h name package).mp hget).1

/-! ## Reading wheels -/

theorem addWheel_eq_ok {d d' : Dict Text LockedWheel} {item : Toml} : addWheel readers d item = .ok d' ↔
    ∃ wheel, wheelOf readers item = .ok wheel ∧ (∀ previous ∈ d.get? wheel.filename, previous = wheel) ∧
      d' = d.insert wheel.filename wheel := by
  rw [addWheel, Imp.except_bind_eq_ok]
  refine exists_congr fun wheel => and_congr_right fun _ => ?_
  rw [Imp.check_bind_eq_ok, Imp.require_eq_ok]
  exact and_congr_right fun _ => ⟨fun h => (Except.ok.inj h).symm, fun h => congrArg Except.ok h.symm⟩

/-- The dictionary has the wheels of the items under their filenames. -/
def HasWheels (readers : LockReaders) (items : List Toml) (d : Dict Text LockedWheel) : Prop :=
  ∀ filename wheel, d.get? filename = some wheel ↔
    wheel.filename = filename ∧ ∃ item ∈ items, wheelOf readers item = .ok wheel

theorem HasWheels.add {items : List Toml} {d d' : Dict Text LockedWheel} {item : Toml} (h : HasWheels readers items d)
    (hadd : addWheel readers d item = .ok d') : HasWheels readers (items ++ [item]) d' := by
  obtain ⟨wheel, hwheel, hsame, rfl⟩ := addWheel_eq_ok.mp hadd
  intro filename wheel'
  have hitems : (∃ item' ∈ items ++ [item], wheelOf readers item' = .ok wheel') ↔
      (∃ item' ∈ items, wheelOf readers item' = .ok wheel') ∨ wheel' = wheel := by
    constructor
    · rintro ⟨item', hmem, hread⟩
      rcases List.mem_append.mp hmem with hmem | hmem
      · exact Or.inl ⟨item', hmem, hread⟩
      · rw [List.mem_singleton.mp hmem, hwheel] at hread
        exact Or.inr (Except.ok.inj hread).symm
    · rintro (⟨item', hmem, hread⟩ | rfl)
      · exact ⟨item', List.mem_append_left _ hmem, hread⟩
      · exact ⟨item, List.mem_append_right _ List.mem_cons_self, hwheel⟩
  rw [Dict.get?_insert, hitems]
  by_cases hname : filename = wheel.filename
  · rw [if_pos hname, Option.some.injEq]
    constructor
    · rintro rfl
      exact ⟨hname.symm, Or.inr rfl⟩
    · rintro ⟨hfilename, hread | rfl⟩
      · exact (hsame wheel' (hname ▸ (h filename wheel').mpr ⟨hfilename, hread⟩)).symm
      · rfl
  · rw [if_neg hname, h]
    refine and_congr_right fun hfilename => (or_iff_left ?_).symm
    rintro rfl
    exact hname hfilename.symm

theorem hasWheels_empty : HasWheels readers [] Dict.empty := by
  intro filename wheel
  rw [Dict.get?_empty]
  refine iff_of_false nofun ?_
  rintro ⟨-, _, hmem, -⟩
  cases hmem

theorem hasWheels_foldlM {items : List Toml} {d : Dict Text LockedWheel}
    (h : items.foldlM (addWheel readers) Dict.empty = .ok d) : HasWheels readers items d :=
  Imp.foldlM_invariant (I := HasWheels readers) (d := []) (fun _ _ _ _ hhas hadd => hhas.add hadd) hasWheels_empty h

/-- Every item is the record of a wheel. -/
theorem wheelOf_of_foldlM {items : List Toml} {d d' : Dict Text LockedWheel}
    (h : items.foldlM (addWheel readers) d = .ok d') : ∀ item ∈ items, ∃ wheel, wheelOf readers item = .ok wheel := by
  induction items generalizing d with
  | nil => exact List.forall_mem_nil _
  | cons item items ih =>
      rw [List.foldlM_cons] at h
      obtain ⟨d₁, hadd, h⟩ := Imp.except_bind_eq_ok.mp h
      obtain ⟨wheel, hwheel, -⟩ := addWheel_eq_ok.mp hadd
      exact List.forall_mem_cons.mpr ⟨⟨wheel, hwheel⟩, ih h⟩

/-- The order of the items does not matter. -/
theorem foldlM_addWheel_of_perm {items items' : List Toml} (hperm : items.Perm items') {d : Dict Text LockedWheel}
    (h : items.foldlM (addWheel readers) Dict.empty = .ok d) : ∃ d',
      items'.foldlM (addWheel readers) Dict.empty = .ok d' ∧ ∀ filename, d'.get? filename = d.get? filename := by
  have hhas := hasWheels_foldlM h
  have hread := wheelOf_of_foldlM h
  have hstep : ∀ before d₁ item after, before ++ item :: after = [] ++ items' → HasWheels readers before d₁ →
      ∃ d₂, addWheel readers d₁ item = .ok d₂ ∧ HasWheels readers (before ++ [item]) d₂ := by
    intro before d₁ item after hsplit hbefore
    rw [List.nil_append] at hsplit
    have hin : ∀ item' ∈ before ++ [item], item' ∈ items := by
      intro item' hmem
      rw [hperm.mem_iff, ← hsplit]
      rcases List.mem_append.mp hmem with hmem | hmem
      · exact List.mem_append_left _ hmem
      · exact List.mem_append_right _ (List.mem_singleton.mp hmem ▸ List.mem_cons_self)
    have hitem := hin item (List.mem_append_right _ List.mem_cons_self)
    obtain ⟨wheel, hwheel⟩ := hread item hitem
    have hadd : addWheel readers d₁ item = .ok (d₁.insert wheel.filename wheel) := by
      refine addWheel_eq_ok.mpr ⟨wheel, hwheel, fun previous hprevious => ?_, rfl⟩
      obtain ⟨hname, item', hmem, hread'⟩ := (hbefore _ _).mp hprevious
      have hfirst := (hhas wheel.filename previous).mpr
        ⟨hname, item', hin item' (List.mem_append_left _ hmem), hread'⟩
      have hsecond := (hhas wheel.filename wheel).mpr ⟨rfl, item, hitem, hwheel⟩
      exact Option.some.inj (hfirst.symm.trans hsecond)
    exact ⟨_, hadd, hbefore.add hadd⟩
  obtain ⟨d', hfold, hhas'⟩ := Imp.foldlM_succeeds (I := HasWheels readers) (d := []) hstep hasWheels_empty
  refine ⟨d', hfold, fun filename => Option.ext fun wheel => ?_⟩
  rw [List.nil_append] at hhas'
  rw [hhas', hhas]
  exact and_congr_right fun _ => exists_congr fun item => and_congr_left' hperm.mem_iff.symm

/-- The values of a dictionary have different keys. -/
theorem nodup_map_values {V : Type} {d : Dict Text V} {key : V → Text} (h : ∀ k v, d.get? k = some v → key v = k) :
    (d.values.map key).Nodup := by
  have hkeys : d.values.map key = d.keys := by
    rw [Dict.values, Dict.keys, List.map_map]
    exact List.map_congr_left fun e he => h e.1 e.2 (Dict.mem_entries.mp he)
  rw [hkeys]
  exact d.nodup

theorem mem_values_iff {V : Type} {d : Dict Text V} {key : V → Text} (h : ∀ k v, d.get? k = some v → key v = k)
    {v : V} : v ∈ d.values ↔ d.get? (key v) = some v := by
  rw [Dict.mem_values]
  constructor
  · rintro ⟨k, hmem⟩
    have hget := Dict.mem_entries.mp hmem
    rw [h k v hget]
    exact hget
  · exact fun hget => ⟨_, Dict.mem_entries.mpr hget⟩

theorem HasWheels.named {items : List Toml} {d : Dict Text LockedWheel} (h : HasWheels readers items d) :
    ∀ filename wheel, d.get? filename = some wheel → wheel.filename = filename :=
  fun filename wheel hget => ((h filename wheel).mp hget).1

theorem eq_of_forall₂_eq {α : Type} {l l' : List α} (h : List.Forall₂ (· = ·) l l') : l = l' := by
  rwa [List.forall₂_eq_eq_eq] at h

/-- What the wheels of a package are read from, in another order. -/
def SameArray (a b : Option Toml) : Prop :=
  a = b ∨ ∃ l l', a = some (.array l) ∧ b = some (.array l') ∧ l.Perm l'

theorem lockedWheels_of_same {raw raw' : Option Toml} (hsame : SameArray raw raw') {name : Text}
    {wheels : List LockedWheel} (h : lockedWheels readers raw name = .ok wheels) :
    lockedWheels readers raw' name = .ok wheels := by
  rcases hsame with rfl | ⟨items, items', rfl, rfl, hperm⟩
  · exact h
  rw [lockedWheels] at h ⊢
  obtain ⟨items₁, hitems, h⟩ := Imp.except_bind_eq_ok.mp h
  obtain rfl : items = items₁ := Option.some.inj (orRaise_eq_ok.mp hitems)
  obtain ⟨hne, h⟩ := Imp.check_bind_eq_ok.mp h
  obtain ⟨d, hd, h⟩ := Imp.except_bind_eq_ok.mp h
  obtain ⟨hnames, h⟩ := Imp.check_bind_eq_ok.mp h
  obtain ⟨d', hd', hget⟩ := foldlM_addWheel_of_perm hperm hd
  have hnamed := (hasWheels_foldlM hd).named
  have hnamed' := (hasWheels_foldlM hd').named
  have hsorted : (d'.values.insertionSort fun a b => a.filename ≤ b.filename) =
      d.values.insertionSort fun a b => a.filename ≤ b.filename := by
    refine eq_of_forall₂_eq (Arranged.forall₂_of_pairwise (Arranged.pairwise_insertionSort (nodup_map_values hnamed'))
      (Arranged.pairwise_insertionSort (nodup_map_values hnamed)) (fun a ha => ⟨a, ?_, rfl, rfl⟩)
      fun b hb => ⟨b, ?_, rfl⟩)
    · rw [List.mem_insertionSort, mem_values_iff hnamed'] at ha
      rw [List.mem_insertionSort, mem_values_iff hnamed, ← hget]
      exact ha
    · rw [List.mem_insertionSort, mem_values_iff hnamed] at hb
      rw [List.mem_insertionSort, mem_values_iff hnamed', hget]
      exact hb
  refine Imp.except_bind_eq_ok.mpr ⟨items', rfl, Imp.check_bind_eq_ok.mpr ⟨?_, ?_⟩⟩
  · rw [Imp.require_eq_ok] at hne ⊢
    exact fun hnil => hne (List.perm_nil.mp (hnil ▸ hperm))
  · refine Imp.except_bind_eq_ok.mpr ⟨d', hd', ?_⟩
    rw [hsorted]
    exact Imp.check_bind_eq_ok.mpr ⟨hnames, h⟩

theorem dependenciesOf_of_same {raw raw' : Option Toml} (hsame : SameArray raw raw')
    {dependencies : List LockedDependency} (h : dependenciesOf raw = .ok dependencies) :
    ∃ dependencies', dependenciesOf raw' = .ok dependencies' ∧ dependencies.Perm dependencies' := by
  rcases hsame with rfl | ⟨items, items', rfl, rfl, hperm⟩
  · exact ⟨dependencies, h, .refl _⟩
  · exact Imp.mapM_of_perm hperm h

/-! ## One lock in two orders -/

/-- A package of a lock with its dependencies and its wheels in another order. -/
inductive SameRawPackage : Toml → Toml → Prop
  | refl (raw : Toml) : SameRawPackage raw raw
  | table {t t' : List (Text × Toml)} (hkeys : t.length = t'.length)
      (hget : ∀ key, key ≠ text "dependencies" → key ≠ text "wheels" → t'.lookup key = t.lookup key)
      (hdependencies : SameArray (tomlGet t "dependencies") (tomlGet t' "dependencies"))
      (hwheels : SameArray (tomlGet t "wheels") (tomlGet t' "wheels")) : SameRawPackage (.table t) (.table t')

/-- A lock with its packages, their dependencies and their wheels in another order. -/
structure SameLock (parsed parsed' : List (Text × Toml)) : Prop where
  get : ∀ key, key ≠ text "package" → parsed'.lookup key = parsed.lookup key
  packages : ∃ l l₁ l', tomlGet parsed "package" = some (.array l) ∧ tomlGet parsed' "package" = some (.array l') ∧
    l.Perm l₁ ∧ List.Forall₂ SameRawPackage l₁ l'

/-- Packages that differ in the order of their dependencies. -/
structure SamePackage (a b : LockedPackage) : Prop where
  name : b.name = a.name
  version : b.version = a.version
  sourceKind : b.sourceKind = a.sourceKind
  dependencies : a.dependencies.Perm b.dependencies
  wheels : b.wheels = a.wheels

theorem SamePackage.symm {a b : LockedPackage} (h : SamePackage a b) : SamePackage b a :=
  ⟨h.name.symm, h.version.symm, h.sourceKind.symm, h.dependencies.symm, h.wheels.symm⟩

theorem SamePackage.refl (a : LockedPackage) : SamePackage a a := ⟨rfl, rfl, rfl, .refl _, rfl⟩

theorem packageOf_of_same {raw raw' : Toml} (hsame : SameRawPackage raw raw') {package : LockedPackage}
    (h : packageOf readers raw = .ok package) :
    ∃ package', packageOf readers raw' = .ok package' ∧ SamePackage package package' := by
  cases hsame with
  | refl => exact ⟨package, h, .refl package⟩
  | @table t t' hkeys hget hdependencies hwheels =>
      have hat : ∀ key : String, text key ≠ text "dependencies" → text key ≠ text "wheels" →
          tomlGet t' key = tomlGet t key := fun key => hget (text key)
      rw [packageOf] at h ⊢
      obtain ⟨t₁, ht, h⟩ := Imp.except_bind_eq_ok.mp h
      obtain rfl : t = t₁ := Option.some.inj (orRaise_eq_ok.mp ht)
      obtain ⟨rawName, hrawName, h⟩ := Imp.except_bind_eq_ok.mp h
      obtain ⟨version, hversion, h⟩ := Imp.except_bind_eq_ok.mp h
      obtain ⟨hvalid, h⟩ := Imp.check_bind_eq_ok.mp h
      obtain ⟨source, hsource, h⟩ := Imp.except_bind_eq_ok.mp h
      obtain ⟨hone, h⟩ := Imp.check_bind_eq_ok.mp h
      obtain ⟨name, hname, h⟩ := Imp.except_bind_eq_ok.mp h
      obtain ⟨kind, hkind, h⟩ := Imp.except_bind_eq_ok.mp h
      obtain ⟨wheels, hread, h⟩ := Imp.except_bind_eq_ok.mp h
      obtain ⟨dependencies, hdeps, h⟩ := Imp.except_bind_eq_ok.mp h
      cases h
      obtain ⟨dependencies', hdeps', hperm⟩ := dependenciesOf_of_same hdependencies hdeps
      have hread' : packageWheels readers kind (tomlGet t' "wheels") name = .ok wheels := by
        cases kind with
        | registry => exact lockedWheels_of_same hwheels hread
        | _ => exact hread
      rw [← hat "name" (by decide +kernel) (by decide +kernel)] at hrawName
      rw [← hat "version" (by decide +kernel) (by decide +kernel)] at hversion
      rw [← hat "source" (by decide +kernel) (by decide +kernel)] at hsource
      refine ⟨{ name, version, sourceKind := kind, dependencies := dependencies', wheels }, ?_,
        ⟨rfl, rfl, rfl, hperm, rfl⟩⟩
      refine Imp.except_bind_eq_ok.mpr ⟨t', rfl, Imp.except_bind_eq_ok.mpr ⟨rawName, hrawName,
        Imp.except_bind_eq_ok.mpr ⟨version, hversion, Imp.check_bind_eq_ok.mpr ⟨hvalid,
        Imp.except_bind_eq_ok.mpr ⟨source, hsource, Imp.check_bind_eq_ok.mpr ⟨hone,
        Imp.except_bind_eq_ok.mpr ⟨name, hname, Imp.except_bind_eq_ok.mpr ⟨kind, hkind,
        Imp.except_bind_eq_ok.mpr ⟨wheels, hread', Imp.except_bind_eq_ok.mpr ⟨dependencies', hdeps', rfl⟩⟩⟩⟩⟩⟩⟩⟩⟩⟩

/-- Packages under the same names that differ in the order of their dependencies. -/
def SamePackages (packages packages' : Dict Text LockedPackage) : Prop :=
  ∀ name, (∀ p, packages.get? name = some p → ∃ p', packages'.get? name = some p' ∧ SamePackage p p') ∧
    ∀ p', packages'.get? name = some p' → ∃ p, packages.get? name = some p ∧ SamePackage p p'

theorem SamePackages.symm (h : SamePackages packages packages') : SamePackages packages' packages := by
  refine fun name => ⟨fun p hp => ?_, fun p hp => ?_⟩
  · obtain ⟨p', hp', hsame⟩ := (h name).2 p hp
    exact ⟨p', hp', hsame.symm⟩
  · obtain ⟨p', hp', hsame⟩ := (h name).1 p hp
    exact ⟨p', hp', hsame.symm⟩

/-- A loop over elements in step collects results in step. -/
theorem mapM_of_forall₂ {α β γ δ ε : Type} {f : α → Except ε γ} {g : β → Except ε δ} {R : α → β → Prop}
    {S : γ → δ → Prop} (hstep : ∀ a b, R a b → ∀ c, f a = .ok c → ∃ d, g b = .ok d ∧ S c d) {l : List α}
    {l' : List β} (hl : List.Forall₂ R l l') {r : List γ} (h : l.mapM f = .ok r) :
    ∃ r', l'.mapM g = .ok r' ∧ List.Forall₂ S r r' := by
  induction hl generalizing r with
  | nil =>
      cases h
      exact ⟨[], rfl, .nil⟩
  | cons hab _ ih =>
      obtain ⟨c, hc, rest, hrest, rfl⟩ := Imp.mapM_cons_eq_ok.mp h
      obtain ⟨d, hd, hS⟩ := hstep _ _ hab c hc
      obtain ⟨rest', hrest', hall⟩ := ih hrest
      exact ⟨d :: rest', Imp.mapM_cons_eq_ok.mpr ⟨d, hd, rest', hrest', rfl⟩, .cons hS hall⟩

theorem exists_of_forall₂_left {α β : Type} {R : α → β → Prop} {l : List α} {l' : List β}
    (h : List.Forall₂ R l l') : ∀ a ∈ l, ∃ b ∈ l', R a b := by
  induction h with
  | nil => exact List.forall_mem_nil _
  | cons hab _ ih =>
      refine List.forall_mem_cons.mpr ⟨⟨_, List.mem_cons_self, hab⟩, fun a ha => ?_⟩
      obtain ⟨b, hb, hR⟩ := ih a ha
      exact ⟨b, List.mem_cons_of_mem _ hb, hR⟩

theorem exists_of_forall₂_right {α β : Type} {R : α → β → Prop} {l : List α} {l' : List β}
    (h : List.Forall₂ R l l') : ∀ b ∈ l', ∃ a ∈ l, R a b :=
  fun b hb => (exists_of_forall₂_left h.flip b hb).imp fun _ => id

theorem foldlM_addPackage_of_same {l l₁ l' : List Toml} (hperm : l.Perm l₁) (hsame : List.Forall₂ SameRawPackage l₁ l')
    (h : l.foldlM (addPackage readers) Dict.empty = .ok packages) : ∃ packages',
      l'.foldlM (addPackage readers) Dict.empty = .ok packages' ∧ SamePackages packages packages' := by
  obtain ⟨read, hread, hnodup, hentries⟩ := foldlM_addPackage_eq_ok.mp h
  obtain ⟨read₁, hread₁, hperm₁⟩ := Imp.mapM_of_perm hperm hread
  have hpackage : ∀ a b, SameRawPackage a b → ∀ c, packageOf readers a = .ok c →
      ∃ d, packageOf readers b = .ok d ∧ SamePackage c d := fun _ _ hsame _ hread => packageOf_of_same hsame hread
  obtain ⟨read', hread', hall⟩ := mapM_of_forall₂ hpackage hsame hread₁
  have hnames : read'.map LockedPackage.name = read₁.map LockedPackage.name := by
    clear hread' hread₁ hperm₁
    induction hall with
    | nil => rfl
    | cons hsame _ ih => rw [List.map_cons, List.map_cons, hsame.name, ih]
  have hnodup' : (read'.map LockedPackage.name).Nodup := by
    rw [hnames]
    exact (hperm₁.map _).nodup_iff.mp hnodup
  let packages' : Dict Text LockedPackage := ⟨read'.map fun p => (p.name, p), by
    rw [List.map_map]
    exact hnodup'⟩
  have hfold : l'.foldlM (addPackage readers) Dict.empty = .ok packages' :=
    foldlM_addPackage_eq_ok.mpr ⟨read', hread', hnodup', rfl⟩
  refine ⟨packages', hfold, fun name => ⟨fun p hp => ?_, fun p' hp' => ?_⟩⟩
  · obtain ⟨rfl, hin⟩ := (get?_of_foldlM_addPackage h name p).mp hp
    rw [← Imp.mem_of_mapM hread, hperm₁.mem_iff] at hin
    obtain ⟨p', hp', hsame⟩ := exists_of_forall₂_left hall p hin
    refine ⟨p', (get?_of_foldlM_addPackage hfold _ p').mpr ⟨hsame.name, ?_⟩, hsame⟩
    exact (Imp.mem_of_mapM hread').mp hp'
  · obtain ⟨rfl, hin⟩ := (get?_of_foldlM_addPackage hfold name p').mp hp'
    rw [← Imp.mem_of_mapM hread'] at hin
    obtain ⟨p, hp, hsame⟩ := exists_of_forall₂_right hall p' hin
    refine ⟨p, (get?_of_foldlM_addPackage h _ p).mpr ⟨hsame.name.symm, ?_⟩, hsame⟩
    rw [← Imp.mem_of_mapM hread, hperm₁.mem_iff]
    exact hp

theorem readLock_of_same {parsed parsed' : List (Text × Toml)} (hsame : SameLock parsed parsed')
    {members : List Text} (h : readLock readers parsed target = .ok (members, packages)) : ∃ packages',
      readLock readers parsed' target = .ok (members, packages') ∧ SamePackages packages packages' := by
  have hat : ∀ key : String, text key ≠ text "package" → tomlGet parsed' key = tomlGet parsed key :=
    fun key => hsame.get (text key)
  rw [readLock] at h ⊢
  obtain ⟨hversion, h⟩ := Imp.check_bind_eq_ok.mp h
  obtain ⟨hrevision, h⟩ := Imp.check_bind_eq_ok.mp h
  obtain ⟨allowed, hallowed, h⟩ := Imp.except_bind_eq_ok.mp h
  obtain ⟨htrue, h⟩ := Imp.check_bind_eq_ok.mp h
  obtain ⟨manifest, hmanifest, h⟩ := Imp.except_bind_eq_ok.mp h
  obtain ⟨rawPackages, hraw, h⟩ := Imp.except_bind_eq_ok.mp h
  obtain ⟨hne, h⟩ := Imp.check_bind_eq_ok.mp h
  obtain ⟨rawMembers, hrawMembers, h⟩ := Imp.except_bind_eq_ok.mp h
  obtain ⟨memberTexts, htexts, h⟩ := Imp.except_bind_eq_ok.mp h
  obtain ⟨members₁, hmembers, h⟩ := Imp.except_bind_eq_ok.mp h
  obtain ⟨hsorted, h⟩ := Imp.check_bind_eq_ok.mp h
  obtain ⟨packages₁, hpackages, h⟩ := Imp.except_bind_eq_ok.mp h
  cases h
  obtain ⟨l, l₁, l', hl, hl', hperm, hall⟩ := hsame.packages
  have hlist : l = rawPackages := by
    rw [hl, Option.bind_some] at hraw
    exact Option.some.inj (orRaise_eq_ok.mp hraw)
  subst hlist
  obtain ⟨packages', hpackages', hsamePackages⟩ := foldlM_addPackage_of_same hperm hall hpackages
  have hne' : Imp.require (l' ≠ []) lockfileInvalid = .ok () := by
    rw [Imp.require_eq_ok] at hne ⊢
    rintro rfl
    cases hall
    exact hne (List.perm_nil.mp hperm)
  rw [← hat "version" (by decide +kernel)] at hversion
  rw [← hat "revision" (by decide +kernel)] at hrevision
  rw [← hat "requires-python" (by decide +kernel)] at hallowed
  rw [← hat "manifest" (by decide +kernel)] at hmanifest
  refine ⟨packages', ?_, hsamePackages⟩
  refine Imp.check_bind_eq_ok.mpr ⟨hversion, Imp.check_bind_eq_ok.mpr ⟨hrevision,
    Imp.except_bind_eq_ok.mpr ⟨allowed, hallowed, Imp.check_bind_eq_ok.mpr ⟨htrue,
    Imp.except_bind_eq_ok.mpr ⟨manifest, hmanifest, Imp.except_bind_eq_ok.mpr ⟨l', ?_,
    Imp.check_bind_eq_ok.mpr ⟨hne', Imp.except_bind_eq_ok.mpr ⟨rawMembers, hrawMembers,
    Imp.except_bind_eq_ok.mpr ⟨memberTexts, htexts, Imp.except_bind_eq_ok.mpr ⟨members, hmembers,
    Imp.check_bind_eq_ok.mpr ⟨hsorted, Imp.except_bind_eq_ok.mpr ⟨packages', hpackages', rfl⟩⟩⟩⟩⟩⟩⟩⟩⟩⟩⟩⟩
  rw [hl']
  rfl

/-! ## One closure in two orders -/

theorem isEditable_of_same (h : SamePackages packages packages') {name : Text} (hname : IsEditable packages name) :
    IsEditable packages' name := by
  obtain ⟨p, hp, hkind⟩ := hname
  obtain ⟨p', hp', hsame⟩ := (h name).1 p hp
  exact ⟨p', hp', hsame.sourceKind.trans hkind⟩

theorem dependsOn_of_same (h : SamePackages packages packages') {name name' : Text}
    (hdepends : DependsOn readers target packages name name') : DependsOn readers target packages' name name' := by
  obtain ⟨p, hp, d, hd, hrest⟩ := hdepends
  obtain ⟨p', hp', hsame⟩ := (h name).1 p hp
  exact ⟨p', hp', d, hsame.dependencies.mem_iff.mp hd, hrest⟩

theorem needed_iff_of_same (h : SamePackages packages packages') (name : Text) :
    Needed readers target packages' name ↔ Needed readers target packages name :=
  ⟨Reached.congr (fun _ => isEditable_of_same h.symm) fun _ _ => dependsOn_of_same h.symm,
    Reached.congr (fun _ => isEditable_of_same h) fun _ _ => dependsOn_of_same h⟩

/-- The loop succeeds exactly if all needed packages are there and their markers can be evaluated. -/
theorem closureLoop_eq_ok_iff (hnamed : Named packages) :
    (∃ registry, (closureLoop readers target packages).run (closureStart packages) = .ok registry) ↔
      (∀ name, Needed readers target packages name → packages.get? name ≠ none) ∧
        ∀ failure, ¬HasUnevaluated readers target packages failure := by
  have hends := closureLoop_ends readers target hnamed
  constructor
  · rintro ⟨registry, hrun⟩
    rw [hrun] at hends
    refine ⟨fun name hneeded hnone => ?_, ?_⟩
    · obtain ⟨p, hp, -⟩ := hends.2 name hneeded
      rw [hnone] at hp
      cases hp
    · rintro failure ⟨name, p, hneeded, hp, d, hd, marker, hmarker, herror⟩
      obtain ⟨p', hp', hall⟩ := hends.2 name hneeded
      cases hp.symm.trans hp'
      obtain ⟨applies, happlies⟩ := hall d hd
      rw [applies_eq_error.mpr ⟨marker, hmarker, herror⟩] at happlies
      cases happlies
  · rintro ⟨hpresent, hevaluated⟩
    cases hrun : (closureLoop readers target packages).run (closureStart packages) with
    | ok registry => exact ⟨registry, rfl⟩
    | error failure =>
        rw [hrun] at hends
        rcases hends with ⟨-, name, hneeded, hnone⟩ | hunevaluated
        · exact absurd hnone (hpresent name hneeded)
        · exact absurd hunevaluated (hevaluated failure)

theorem hasUnevaluated_of_same (h : SamePackages packages packages') {failure : Failure}
    (hunevaluated : HasUnevaluated readers target packages' failure) :
    HasUnevaluated readers target packages failure := by
  obtain ⟨name, p', hneeded, hp', d, hd, hrest⟩ := hunevaluated
  obtain ⟨p, hp, hsame⟩ := (h name).2 p' hp'
  exact ⟨name, p, (needed_iff_of_same h name).mp hneeded, hp, d, hsame.dependencies.mem_iff.mpr hd, hrest⟩

/-- Packages in the order of their names are in step if they are the same. -/
theorem forall₂_sortPackages {l l' : List LockedPackage} (hl : (l.map LockedPackage.name).Nodup)
    (hl' : (l'.map LockedPackage.name).Nodup) (hleft : ∀ p ∈ l, ∃ p' ∈ l', SamePackage p p')
    (hright : ∀ p' ∈ l', ∃ p ∈ l, SamePackage p p') :
    List.Forall₂ SamePackage (sortPackages l) (sortPackages l') := by
  refine Arranged.forall₂_of_pairwise (Arranged.pairwise_insertionSort hl) (Arranged.pairwise_insertionSort hl')
    (fun p hp => ?_) fun p' hp' => ?_
  · obtain ⟨p', hp', hsame⟩ := hleft p ((List.mem_insertionSort _).mp hp)
    exact ⟨p', (List.mem_insertionSort _).mpr hp', hsame.name, hsame⟩
  · obtain ⟨p, hp, hsame⟩ := hright p' ((List.mem_insertionSort _).mp hp')
    exact ⟨p, (List.mem_insertionSort _).mpr hp, hsame.name.symm⟩

/-- The packages of a lock that are chosen by what the order does not change. -/
theorem forall₂_filter_values (h : SamePackages packages packages') (hnamed : Named packages)
    (hnamed' : Named packages') (chosen : LockedPackage → Bool)
    (hchosen : ∀ p p', SamePackage p p' → chosen p' = chosen p) :
    List.Forall₂ SamePackage (sortPackages (packages.values.filter chosen))
      (sortPackages (packages'.values.filter chosen)) := by
  have hmem : ∀ {d : Dict Text LockedPackage}, Named d → ∀ p, p ∈ d.values.filter chosen ↔
      d.get? p.name = some p ∧ chosen p = true := fun hd p => by
    rw [List.mem_filter, mem_values_iff hd]
  refine forall₂_sortPackages ((nodup_map_values hnamed).sublist (List.filter_sublist.map _))
    ((nodup_map_values hnamed').sublist (List.filter_sublist.map _)) (fun p hp => ?_) fun p' hp' => ?_
  · obtain ⟨hget, htrue⟩ := (hmem hnamed p).mp hp
    obtain ⟨p', hp', hsame⟩ := (h p.name).1 p hget
    exact ⟨p', (hmem hnamed' p').mpr ⟨hsame.name ▸ hp', (hchosen p p' hsame).trans htrue⟩, hsame⟩
  · obtain ⟨hget, htrue⟩ := (hmem hnamed' p').mp hp'
    obtain ⟨p, hp, hsame⟩ := (h p'.name).2 p' hget
    refine ⟨p, (hmem hnamed p).mpr ⟨?_, (hchosen p p' hsame).symm.trans htrue⟩, hsame⟩
    rw [← hsame.name]
    exact hp

theorem map_name_eq {l l' : List LockedPackage} (h : List.Forall₂ SamePackage l l') :
    l'.map LockedPackage.name = l.map LockedPackage.name := by
  induction h with
  | nil => rfl
  | cons hsame _ ih => rw [List.map_cons, List.map_cons, hsame.name, ih]

/-- The declared members are the names of the packages in their order. -/
theorem declaredMembers_eq (hnamed : Named packages) : declaredMembers packages =
    (sortPackages (packages.values.filter fun p => p.sourceKind ≠ .registry)).map LockedPackage.name := by
  have hnodup := (nodup_map_values hnamed).sublist
    ((List.filter_sublist (p := fun p : LockedPackage => p.sourceKind ≠ .registry)).map LockedPackage.name)
  have hsorted : ((sortPackages (packages.values.filter fun p => p.sourceKind ≠ .registry)).map
      LockedPackage.name).Pairwise (· ≤ ·) :=
    List.pairwise_map.mpr ((Arranged.pairwise_insertionSort hnodup).imp le_of_lt)
  exact List.Perm.eq_of_pairwise (fun _ _ _ _ => le_antisymm) (List.pairwise_insertionSort _ _) hsorted
    ((List.perm_insertionSort _ _).trans ((List.perm_insertionSort _ _).symm.map _))

theorem declaredMembers_of_same (h : SamePackages packages packages') (hnamed : Named packages)
    (hnamed' : Named packages') : declaredMembers packages' = declaredMembers packages := by
  rw [declaredMembers_eq hnamed, declaredMembers_eq hnamed']
  refine map_name_eq (forall₂_filter_values h hnamed hnamed' _ fun p p' hsame => ?_)
  rw [hsame.sourceKind]

theorem workspaceOf_of_same (h : SamePackages packages packages') (hnamed : Named packages)
    (hnamed' : Named packages') : List.Forall₂ SamePackage (workspaceOf packages) (workspaceOf packages') :=
  forall₂_filter_values h hnamed hnamed' _ fun p p' hsame => by rw [hsame.sourceKind]

/-- The registry that the loop returns. -/
theorem named_of_closureLoop {registry : Dict Text LockedPackage} (hnamed : Named packages)
    (hrun : (closureLoop readers target packages).run (closureStart packages) = .ok registry) : Named registry := by
  have hends := closureLoop_ends readers target hnamed
  rw [hrun] at hends
  exact fun name p hget => hnamed name p ((hends.1 name p).mp hget).2.1

theorem runtime_of_same (h : SamePackages packages packages') (hnamed : Named packages) (hnamed' : Named packages')
    {registry registry' : Dict Text LockedPackage}
    (hrun : (closureLoop readers target packages).run (closureStart packages) = .ok registry)
    (hrun' : (closureLoop readers target packages').run (closureStart packages') = .ok registry') :
    List.Forall₂ SamePackage (sortPackages registry.values) (sortPackages registry'.values) := by
  have hends := closureLoop_ends readers target hnamed
  have hends' := closureLoop_ends readers target hnamed'
  rw [hrun] at hends
  rw [hrun'] at hends'
  have hregistry := named_of_closureLoop hnamed hrun
  have hregistry' := named_of_closureLoop hnamed' hrun'
  refine forall₂_sortPackages (nodup_map_values hregistry) (nodup_map_values hregistry') (fun p hp => ?_)
    fun p' hp' => ?_
  · obtain ⟨hneeded, hget, hkind⟩ := (hends.1 _ p).mp ((mem_values_iff hregistry).mp hp)
    obtain ⟨p', hp', hsame⟩ := (h p.name).1 p hget
    refine ⟨p', (mem_values_iff hregistry').mpr ((hends'.1 _ p').mpr ⟨?_, ?_, hsame.sourceKind.trans hkind⟩), hsame⟩
    · rw [hsame.name]
      exact (needed_iff_of_same h _).mpr hneeded
    · rw [hsame.name]
      exact hp'
  · obtain ⟨hneeded, hget, hkind⟩ := (hends'.1 _ p').mp ((mem_values_iff hregistry').mp hp')
    obtain ⟨p, hp, hsame⟩ := (h p'.name).2 p' hget
    refine ⟨p, (mem_values_iff hregistry).mpr ((hends.1 _ p).mpr ⟨?_, ?_, hsame.sourceKind.symm.trans hkind⟩), hsame⟩
    · rw [← hsame.name]
      exact (needed_iff_of_same h _).mp hneeded
    · rw [← hsame.name]
      exact hp

/-- Locks that differ in the order of the dependencies of their packages. -/
structure SameRuntimeLock (lock lock' : RuntimeLock) : Prop where
  target : lock'.target = lock.target
  members : lock'.members = lock.members
  workspace : List.Forall₂ SamePackage lock.workspace lock'.workspace
  runtime : List.Forall₂ SamePackage lock.runtime lock'.runtime

theorem named_of_readLock {parsed : List (Text × Toml)} {members : List Text}
    (h : readLock readers parsed target = .ok (members, packages)) : Named packages := by
  rw [readLock] at h
  obtain ⟨-, h⟩ := Imp.check_bind_eq_ok.mp h
  obtain ⟨-, h⟩ := Imp.check_bind_eq_ok.mp h
  obtain ⟨_, -, h⟩ := Imp.except_bind_eq_ok.mp h
  obtain ⟨-, h⟩ := Imp.check_bind_eq_ok.mp h
  obtain ⟨_, -, h⟩ := Imp.except_bind_eq_ok.mp h
  obtain ⟨_, -, h⟩ := Imp.except_bind_eq_ok.mp h
  obtain ⟨-, h⟩ := Imp.check_bind_eq_ok.mp h
  obtain ⟨_, -, h⟩ := Imp.except_bind_eq_ok.mp h
  obtain ⟨_, -, h⟩ := Imp.except_bind_eq_ok.mp h
  obtain ⟨_, -, h⟩ := Imp.except_bind_eq_ok.mp h
  obtain ⟨-, h⟩ := Imp.check_bind_eq_ok.mp h
  obtain ⟨_, hpackages, h⟩ := Imp.except_bind_eq_ok.mp h
  cases h
  exact named_of_foldlM_addPackage hpackages

theorem runtimeLockOf_eq_ok {parsed : List (Text × Toml)} {lock : RuntimeLock} :
    runtimeLockOf readers parsed target = .ok lock ↔ ∃ members packages registry,
      readLock readers parsed target = .ok (members, packages) ∧
      (workspaceOf packages).length = expectedWorkspaceDistributions ∧ members = declaredMembers packages ∧
      (closureLoop readers target packages).run (closureStart packages) = .ok registry ∧
      lock = ⟨target, members, workspaceOf packages, sortPackages registry.values⟩ := by
  rw [runtimeLockOf, Imp.except_bind_eq_ok]
  constructor
  · rintro ⟨⟨members, packages⟩, hread, h⟩
    obtain ⟨hlength, h⟩ := Imp.check_bind_eq_ok.mp h
    obtain ⟨hmembers, h⟩ := Imp.check_bind_eq_ok.mp h
    obtain ⟨registry, hrun, h⟩ := Imp.except_bind_eq_ok.mp h
    exact ⟨members, packages, registry, hread, Imp.require_eq_ok.mp hlength, Imp.require_eq_ok.mp hmembers, hrun,
      (Except.ok.inj h).symm⟩
  · rintro ⟨members, packages, registry, hread, hlength, hmembers, hrun, rfl⟩
    exact ⟨(members, packages), hread, Imp.check_bind_eq_ok.mpr ⟨Imp.require_eq_ok.mpr hlength,
      Imp.check_bind_eq_ok.mpr ⟨Imp.require_eq_ok.mpr hmembers, Imp.except_bind_eq_ok.mpr ⟨registry, hrun, rfl⟩⟩⟩⟩

theorem runtimeLockOf_of_same {parsed parsed' : List (Text × Toml)} (hsame : SameLock parsed parsed')
    {lock : RuntimeLock} (h : runtimeLockOf readers parsed target = .ok lock) :
    ∃ lock', runtimeLockOf readers parsed' target = .ok lock' ∧ SameRuntimeLock lock lock' := by
  obtain ⟨members, packages, registry, hread, hlength, hmembers, hrun, rfl⟩ := runtimeLockOf_eq_ok.mp h
  obtain ⟨packages', hread', hpackages⟩ := readLock_of_same hsame hread
  have hnamed := named_of_readLock hread
  have hnamed' := named_of_readLock hread'
  have hworkspace := workspaceOf_of_same hpackages hnamed hnamed'
  have hok' : ∃ registry', (closureLoop readers target packages').run (closureStart packages') = .ok registry' := by
    obtain ⟨hpresent, hevaluated⟩ := (closureLoop_eq_ok_iff hnamed).mp ⟨registry, hrun⟩
    refine (closureLoop_eq_ok_iff hnamed').mpr ⟨fun name hneeded hnone => ?_, fun failure hunevaluated =>
      hevaluated failure (hasUnevaluated_of_same hpackages hunevaluated)⟩
    obtain ⟨p, hp⟩ := Option.ne_none_iff_exists'.mp (hpresent name ((needed_iff_of_same hpackages name).mp hneeded))
    obtain ⟨p', hp', -⟩ := (hpackages name).1 p hp
    rw [hnone] at hp'
    cases hp'
  obtain ⟨registry', hrun'⟩ := hok'
  refine ⟨⟨target, members, workspaceOf packages', sortPackages registry'.values⟩, runtimeLockOf_eq_ok.mpr
    ⟨members, packages', registry', hread', hworkspace.length_eq ▸ hlength,
      hmembers.trans (declaredMembers_of_same hpackages hnamed hnamed').symm, hrun', rfl⟩, ⟨rfl, rfl, hworkspace,
      runtime_of_same hpackages hnamed hnamed' hrun hrun'⟩⟩

/-- The requirements are written from what the order does not change. -/
theorem canonicalRuntimeRequirements_of_same {lock lock' : RuntimeLock} (h : SameRuntimeLock lock lock') :
    canonicalRuntimeRequirements lock' = canonicalRuntimeRequirements lock := by
  have hlines : ∀ {l l' : List LockedPackage}, List.Forall₂ SamePackage l l' →
      l'.mapM packageLines = l.mapM packageLines := by
    intro l l' hall
    induction hall with
    | nil => rfl
    | cons hsame _ ih => rw [List.mapM_cons, List.mapM_cons, packageLines, packageLines, hsame.wheels, hsame.name,
        hsame.version, ih]
  rw [canonicalRuntimeRequirements, canonicalRuntimeRequirements, h.target, hlines h.runtime]

end StateWeaver.Candidate

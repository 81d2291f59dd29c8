import StateWeaver.Lib.Sha2
import StateWeaver.StateBridge.Commands

/-!
# Imports are crash-atomic

The history names, for every pointer that was replaced, what the running command had to commit: the seed if
there was no pointer, else its archive. In every state the pointer is to a complete generation, that of the
last one in the history (`Sound`). Each request of a commit keeps this, as it writes a staged file, replaces
a component by what it already is, or replaces the pointer when all six components are there.
-/

namespace StateWeaver.StateBridge

open CrashFiles Requests
open Py (Text Tree text)

/-- What a pointer was replaced for. -/
inductive Source where
  | seed
  | archive (stdin : ByteArray)
  deriving DecidableEq

def Source.components : Source → Except Failure Components
  | .seed => .ok StateBridge.seed
  | .archive stdin => do validateArchive (← parseInput stdin)

/-- What is noted of a file that was replaced, given whether it was there: only an import replaces a pointer
that is there. -/
def noteCommit (command : Command) (present : Bool) (replaced : Path) (history : List Source) : List Source :=
  if replaced = activeGenerationPath then
    match present, command with
    | false, _ => history ++ [.seed]
    | true, .import_ stdin => history ++ [.archive stdin]
    | true, _ => history
  else history

theorem noteCommit_of_ne {command : Command} {present : Bool} {replaced : Path} (history : List Source)
    (h : replaced ≠ activeGenerationPath) : noteCommit command present replaced history = history := if_neg h

abbrev Bridge := Journal Path (List Source)

/-! ## Reading a file -/

variable {command : Command} {inv : Bridge → Prop} {possible : Outcome → Prop} {j : Bridge}

/-- The environment of a command. -/
abbrev environment (command : Command) (inv : Bridge → Prop) (possible : Outcome → Prop) :=
  Journal.keeping Failure.os (noteCommit command) inv possible

/-- Whether code was only stopped by a request that failed. -/
def Stopped (possible : Outcome → Prop) (j : Bridge) (_ : Failure) (j' : Bridge) : Prop :=
  j' = j ∧ ∃ outcome, possible outcome ∧ outcome ≠ .done

theorem meets_readBytes {p : Path} {bytes : ByteArray} (hinv : inv j) (hfile : j.files p = some ⟨bytes, true⟩) :
    (readBytes p).Meets (environment command inv possible) j (fun raw j' => j' = j ∧ raw = bytes)
      (Stopped possible j) := by
  refine (meets_read hinv).mono ?_ ?_
  · rintro raw j' ⟨hsame, synced, hraw⟩
    rw [hfile] at hraw
    cases hraw
    exact ⟨hsame, rfl⟩
  · rintro e j' ⟨hsame, -, hnone | hstopped⟩
    · rw [hfile] at hnone
      cases hnone
    · exact ⟨hsame, hstopped⟩

theorem parse_of_canonical {v : Tree} {bytes : ByteArray} (h : canonical v = .ok bytes) (hv : v.Distinct)
    (hsize : bytes.size ≤ maxArchiveBytes) : parse bytes = .ok v.sort := by
  obtain ⟨decoded, hdecode, hloads⟩ := loads_of_canonical h hv
  obtain ⟨hvalid, rfl⟩ := canonical_eq_ok.mp h
  have hpos := Py.readBack_utf8Syntax.length_text_pos (Py.allValid_sort hvalid)
  exact parse_eq_ok.mpr ⟨⟨Py.size_encode_pos (List.ne_nil_of_length_pos hpos), hsize⟩, decoded, hdecode, hloads⟩

/-! ## Writing components -/

/-- Whether the files of a component are there and are durable. -/
def Written (c : Components) (generation : String) (files : Files Path) (e : Text × Path) : Prop :=
  ∃ bytes, canonical (component c e.1) = .ok bytes ∧
    files (generationPath e.2 generation) = some ⟨bytes, true⟩

/-- Whether every file is as before, staged, or a component of a new generation. -/
structure Overlays (c : Components) (generation : String) (j j' : Bridge) : Prop where
  history : j'.history = j.history
  pointer : j'.files activeGenerationPath = j.files activeGenerationPath
  files : ∀ q : Path, q.suffix ≠ ".next".toList → j'.files q = j.files q ∨
    ∃ e ∈ componentPaths, q = generationPath e.2 generation ∧ Written c generation j'.files e

variable {c : Components} {generation : String} {j₁ j₂ : Bridge}

theorem Overlays.refl (c : Components) (generation : String) (j : Bridge) : Overlays c generation j j :=
  ⟨rfl, rfl, fun _ _ => Or.inl rfl⟩

theorem suffix_generationPath_ne {e : Text × Path} (he : e ∈ componentPaths) (generation : String) :
    (generationPath e.2 generation).suffix ≠ ".next".toList := by
  rw [(parts_generationPath he generation).1]
  decide

/-- A component that was written stays written. -/
theorem Overlays.written (h : Overlays c generation j j₁) {e : Text × Path} (he : e ∈ componentPaths)
    (hwritten : Written c generation j.files e) : Written c generation j₁.files e := by
  rcases h.files _ (suffix_generationPath_ne he generation) with hsame | ⟨e', he', hpath, hwritten'⟩
  · obtain ⟨bytes, hbytes, hfile⟩ := hwritten
    exact ⟨bytes, hbytes, hsame.trans hfile⟩
  · obtain ⟨rfl, -⟩ := generationPath_inj he he' hpath
    exact hwritten'

theorem Overlays.trans (h : Overlays c generation j j₁) (h' : Overlays c generation j₁ j₂) :
    Overlays c generation j j₂ := by
  refine ⟨h'.history.trans h.history, h'.pointer.trans h.pointer, fun q hq => ?_⟩
  rcases h'.files q hq with hsame | hnew
  · rcases h.files q hq with hsame' | ⟨e, he, hpath, hwritten⟩
    · exact Or.inl (hsame.trans hsame')
    · exact Or.inr ⟨e, he, hpath, h'.written he hwritten⟩
  · exact Or.inr hnew

theorem Overlays.of_sameBut {p : Path} (hp : p.stem ≠ []) (h : j.SameBut (stagedPath p) j₁) :
    Overlays c generation j j₁ :=
  ⟨h.2, h.1 _ (ne_stagedPath hp (by decide)), fun q hq => Or.inl (h.1 q (ne_stagedPath hp hq))⟩

/-- The six components are written. -/
theorem meets_writeComponents (hc : IsComponents c) {rest : List (Text × Path)}
    (hrest : ∀ e ∈ rest, e ∈ componentPaths) (hinv : ∀ j', Overlays c generation j j' → inv j')
    (hover : Overlays c generation j j₁) :
    (writeComponents generation c rest).Meets (environment command inv possible) j₁
      (fun _ j' => Overlays c generation j j' ∧ Overlays c generation j₁ j' ∧
        ∀ e ∈ rest, Written c generation j'.files e) fun _ _ => True := by
  induction rest generalizing j₁ with
  | nil => exact ⟨hover, .refl _ _ _, List.forall_mem_nil _⟩
  | cons e rest ih =>
      obtain ⟨he, hrest⟩ := List.forall_mem_cons.mp hrest
      have hstem : (generationPath e.2 generation).stem ≠ [] := by
        rw [(parts_generationPath he generation).2]
        exact List.append_ne_nil_of_left_ne_nil (by decide) _
      rw [writeComponents, Action.meets_bind, item_eq_ok.mpr (hc.lookup he).1, Action.meets_lift]
      refine ⟨fun value hvalue => ?_, nofun⟩
      obtain rfl := Except.ok.inj hvalue
      rw [Action.meets_bind, writeObject, Action.meets_bind, Action.meets_lift]
      refine ⟨fun bytes hbytes => ?_, fun _ _ => trivial⟩
      have hend : ∀ j', j'.files (generationPath e.2 generation) = some ⟨bytes, true⟩ →
          (∀ q, q ≠ stagedPath (generationPath e.2 generation) → q ≠ generationPath e.2 generation →
            j'.files q = j₁.files q) → j'.history = noteCommit command
              (j₁.files (generationPath e.2 generation)).isSome (generationPath e.2 generation) j₁.history →
                Overlays c generation j₁ j' ∧ Written c generation j'.files e := by
        intro j' hfile hothers hhistory
        rw [noteCommit_of_ne _ (generationPath_ne_active he generation)] at hhistory
        refine ⟨⟨hhistory, ?_, fun q hq => ?_⟩, bytes, hbytes, hfile⟩
        · exact hothers _ (ne_stagedPath hstem (by decide)) (generationPath_ne_active he generation).symm
        · by_cases hpath : q = generationPath e.2 generation
          · exact Or.inr ⟨e, he, hpath, bytes, hbytes, hfile⟩
          · exact Or.inl (hothers q (ne_stagedPath hstem hq) hpath)
      refine (meets_writeReplacing (ne_stagedPath hstem (suffix_generationPath_ne he generation)) ?_ ?_).mono
        ?_ fun _ _ h => h
      · exact fun j' hsame => hinv j' (hover.trans (.of_sameBut hstem hsame))
      · exact fun j' hfile hothers hhistory => hinv j' (hover.trans (hend j' hfile hothers hhistory).1)
      · rintro - j' ⟨hfile, hothers, hhistory⟩
        obtain ⟨hover', hwritten⟩ := hend j' hfile hothers hhistory
        refine (ih hrest (hover.trans hover')).mono ?_ fun _ _ h => h
        rintro - j'' ⟨hall, hlast, hwritten'⟩
        exact ⟨hall, hover'.trans hlast, List.forall_mem_cons.mpr ⟨hlast.written he hwritten, hwritten'⟩⟩

/-- Components that are read back are not too long. -/
theorem meets_verifyComponents {rest : List (Text × Path)} (hinv : inv j)
    (hwritten : ∀ e ∈ rest, Written c generation j.files e) :
    (verifyComponents generation c rest).Meets (environment command inv possible) j
      (fun _ j' => j' = j ∧ ∀ e ∈ rest, ∀ bytes, canonical (component c e.1) = .ok bytes →
        bytes.size ≤ maxArchiveBytes) fun _ _ => True := by
  induction rest with
  | nil => exact ⟨rfl, List.forall_mem_nil _⟩
  | cons e rest ih =>
      obtain ⟨⟨bytes, hbytes, hfile⟩, hrest⟩ := List.forall_mem_cons.mp hwritten
      rw [verifyComponents, Action.meets_bind]
      refine (meets_readBytes hinv hfile).mono ?_ fun _ _ _ => trivial
      rintro raw j' ⟨rfl, rfl⟩
      rw [Action.meets_bind, Action.meets_lift]
      refine ⟨fun restored hparse => ?_, fun _ _ => trivial⟩
      rw [Action.meets_bind, Action.meets_lift]
      refine ⟨fun value _ => ?_, fun _ _ => trivial⟩
      rw [Action.meets_bind, Action.meets_lift]
      refine ⟨fun _ _ => ?_, fun _ _ => trivial⟩
      refine (ih hrest).mono ?_ fun _ _ h => h
      rintro - j'' ⟨rfl, hsize⟩
      refine ⟨rfl, List.forall_mem_cons.mpr ⟨fun bytes' hbytes' => ?_, hsize⟩⟩
      obtain rfl : raw = bytes' := Except.ok.inj (hbytes.symm.trans hbytes')
      exact (parse_eq_ok.mp hparse).1.2

section Sha256

variable [Sha256]

/-! ## Complete generations -/

/-- Whether the pointer is to a complete generation. -/
structure Installed (files : Files Path) (c : Components) (generation : String) : Prop where
  components : IsComponents c
  digest : generationDigest c = .ok generation
  pointer : files activeGenerationPath = some ⟨pointerBytes generation, true⟩
  written : ∀ e ∈ componentPaths, Written c generation files e
  size : ∀ e ∈ componentPaths, ∀ bytes, canonical (component c e.1) = .ok bytes → bytes.size ≤ maxArchiveBytes

/-- Whether the pointer is to the last of the history, if there is any. -/
def Sound (j : Bridge) : Prop :=
  match j.history.getLast? with
  | none => j.files activeGenerationPath = none
  | some source => ∃ c generation, source.components = .ok c ∧ Installed j.files c generation

/-- A state whose pointer and history are the same, and whose components are where they were. -/
theorem Sound.of_files {j j' : Bridge} (h : Sound j) (hhistory : j'.history = j.history)
    (hpointer : j'.files activeGenerationPath = j.files activeGenerationPath)
    (hfiles : ∀ source c generation, j.history.getLast? = some source → source.components = .ok c →
      Installed j.files c generation → ∀ e ∈ componentPaths, Written c generation j'.files e) : Sound j' := by
  rw [Sound] at h ⊢
  rw [hhistory]
  cases hlast : j.history.getLast? with
  | none =>
      rw [hlast] at h
      exact hpointer.trans h
  | some source =>
      rw [hlast] at h
      obtain ⟨c, generation, hsource, hinstalled⟩ := h
      exact ⟨c, generation, hsource, hinstalled.components, hinstalled.digest,
        hpointer.trans hinstalled.pointer, hfiles source c generation hlast hsource hinstalled, hinstalled.size⟩

theorem Sound.of_sameBut {j j' : Bridge} {p : Path} (hp : p.stem ≠ []) (h : Sound j)
    (hsame : j.SameBut (stagedPath p) j') : Sound j' := by
  have hkept : ∀ q : Path, q.suffix ≠ ".next".toList → j'.files q = j.files q :=
    fun q hq => hsame.1 q (ne_stagedPath hp hq)
  refine h.of_files hsame.2 (hkept _ (by decide)) fun _ c generation _ _ hinstalled e he => ?_
  obtain ⟨bytes, hbytes, hfile⟩ := hinstalled.written e he
  refine ⟨bytes, hbytes, ?_⟩
  rw [hkept _ (by rw [(parts_generationPath he generation).1]; decide), hfile]

/-- A crash keeps what was flushed. -/
theorem Sound.crash {j : Bridge} (left : Path → ByteArray) (h : Sound j) :
    Sound { j with files := j.files.crash left } := by
  rw [Sound] at h ⊢
  dsimp only
  cases hlast : j.history.getLast? with
  | none =>
      rw [hlast] at h
      exact Files.crash_of_none h
  | some source =>
      rw [hlast] at h
      obtain ⟨c, generation, hsource, hinstalled⟩ := h
      refine ⟨c, generation, hsource, hinstalled.components, hinstalled.digest,
        Files.crash_of_synced hinstalled.pointer, fun e he => ?_, hinstalled.size⟩
      obtain ⟨bytes, hbytes, hfile⟩ := hinstalled.written e he
      exact ⟨bytes, hbytes, Files.crash_of_synced hfile⟩

/-! ## Reading -/

theorem meets_readAll {c : Components} {generation : String} (hinv : inv j)
    (hinstalled : Installed j.files c generation) {rest : List (Text × Path)}
    (hrest : ∀ e ∈ rest, e ∈ componentPaths) :
    (readAll generation rest).Meets (environment command inv possible) j
      (fun read j' => j' = j ∧ read = rest.map fun e => (e.1, (component c e.1).sort)) (Stopped possible j) := by
  induction rest with
  | nil => exact ⟨rfl, rfl⟩
  | cons e rest ih =>
      obtain ⟨he, hrest⟩ := List.forall_mem_cons.mp hrest
      obtain ⟨bytes, hbytes, hfile⟩ := hinstalled.written e he
      have hdistinct := hinstalled.components.distinct.of_lookup (hinstalled.components.lookup he).1
      have hparse := parse_of_canonical hbytes hdistinct (hinstalled.size e he bytes hbytes)
      rw [readAll, Action.meets_bind]
      refine (meets_readBytes hinv hfile).mono ?_ fun _ _ h => h
      rintro raw j' ⟨rfl, rfl⟩
      rw [Action.meets_bind, hparse, Action.meets_lift]
      refine ⟨fun value hvalue => ?_, nofun⟩
      obtain rfl := Except.ok.inj hvalue
      rw [Action.meets_bind, Action.meets_lift]
      refine ⟨fun _ _ => ?_, fun _ herror => ?_⟩
      · rw [Action.meets_bind]
        refine (ih hrest).mono ?_ fun _ _ h => h
        rintro others j'' ⟨rfl, rfl⟩
        exact ⟨rfl, rfl⟩
      · refine absurd ?_ (Imp.require_eq_error.mp herror).1
        rw [isObject_sort]
        exact hinstalled.components.isObject he

/-- A complete generation is read back. -/
theorem meets_readComponents {c : Components} {generation : String} (hinv : inv j)
    (hinstalled : Installed j.files c generation) :
    readComponents.Meets (environment command inv possible) j (fun read j' => j' = j ∧ read = readBack c)
      (Stopped possible j) := by
  obtain ⟨bytes, -, hgeneration⟩ := Imp.except_bind_eq_ok.mp hinstalled.digest
  obtain rfl := Except.ok.inj hgeneration
  rw [readComponents, Action.meets_bind, readGeneration, Action.meets_bind]
  refine (meets_readBytes hinv hinstalled.pointer).mono ?_ fun _ _ h => h
  rintro raw j' ⟨rfl, rfl⟩
  rw [generationOf_pointerBytes (Sha256.isHexDigest_hexdigest bytes), Action.meets_lift]
  refine ⟨fun generation hgeneration => ?_, nofun⟩
  obtain rfl := Except.ok.inj hgeneration
  exact meets_readAll hinv hinstalled fun _ he => he

/-! ## Committing -/

/-- What a commit relies on: the digest does not collide with that of what was committed last. -/
def Apart (j : Bridge) (c : Components) : Prop :=
  ∀ source c₀, j.history.getLast? = some source → source.components = .ok c₀ →
    Sha256.NoCollision (canonical (.obj c₀)) (canonical (.obj c))

/-- Writing components keeps the generation that the pointer is to, even if it is the same one. -/
theorem Sound.overlays (h : Sound j) (hc : IsComponents c) (hgeneration : generationDigest c = .ok generation)
    (hapart : Apart j c) (hover : Overlays c generation j j₁) : Sound j₁ := by
  refine h.of_files hover.history hover.pointer fun source c₀ generation₀ hlast hsource hinstalled e he => ?_
  obtain ⟨bytes, hbytes, hfile⟩ := hinstalled.written e he
  rcases hover.files _ (suffix_generationPath_ne he generation₀) with hsame | ⟨e', he', hpath, hwritten⟩
  · exact ⟨bytes, hbytes, hsame.trans hfile⟩
  · -- The file is also one of the new generation, so the two have the same canonical bytes.
    obtain ⟨rfl, rfl⟩ := generationPath_inj he he' hpath
    obtain ⟨all₀, hall₀, hdigest₀⟩ := Imp.except_bind_eq_ok.mp hinstalled.digest
    obtain ⟨all, hall, hdigest⟩ := Imp.except_bind_eq_ok.mp hgeneration
    have hsame : all₀ = all := hapart source c₀ hlast hsource all₀ all hall₀ hall
      ((Except.ok.inj hdigest₀).trans (Except.ok.inj hdigest).symm)
    subst hsame
    have hsort := sort_eq_of_canonical hall₀ hinstalled.components.distinct hall hc.distinct
    have hcanonical : canonical (component c₀ e.1) = canonical (component c e.1) :=
      canonical_congr (hinstalled.components.sort_component_of_sort_eq hc hsort he)
    obtain ⟨bytes', hbytes', hfile'⟩ := hwritten
    exact ⟨bytes', hcanonical.trans hbytes', hfile'⟩

/-- A commit replaces the pointer when all six components are there. -/
theorem meets_commitComponents {source : Source} (hc : IsComponents c) (hj : Sound j)
    (hsource : source.components = .ok c) (hapart : Apart j c)
    (hnote : noteCommit command (j.files activeGenerationPath).isSome activeGenerationPath j.history =
      j.history ++ [source]) :
    (commitComponents c).Meets (environment command Sound possible) j
      (fun _ j' => Sound j' ∧ j'.history = j.history ++ [source]) fun _ _ => True := by
  rw [commitComponents, Action.meets_bind, Action.meets_lift]
  refine ⟨fun generation hgeneration => ?_, fun _ _ => trivial⟩
  have hsound : ∀ j', Overlays c generation j j' → Sound j' := fun j' => hj.overlays hc hgeneration hapart
  rw [Action.meets_bind]
  refine (meets_writeComponents hc (fun _ he => he) hsound (.refl _ _ _)).mono ?_ fun _ _ h => h
  rintro - j₁ ⟨hover, -, hwritten⟩
  rw [Action.meets_bind]
  refine (meets_verifyComponents (hsound j₁ hover) hwritten).mono ?_ fun _ _ h => h
  rintro - j₂ ⟨rfl, hsize⟩
  have hend : ∀ j', j'.files activeGenerationPath = some ⟨pointerBytes generation, true⟩ →
      (∀ q, q ≠ stagedPath activeGenerationPath → q ≠ activeGenerationPath → j'.files q = j₂.files q) →
        j'.history = noteCommit command (j₂.files activeGenerationPath).isSome activeGenerationPath j₂.history →
          Sound j' ∧ j'.history = j.history ++ [source] := by
    intro j' hpointer hothers hhistory
    rw [hover.pointer, hover.history, hnote] at hhistory
    refine ⟨?_, hhistory⟩
    rw [Sound, hhistory, List.getLast?_concat]
    refine ⟨c, generation, hsource, hc, hgeneration, hpointer, fun e he => ?_, hsize⟩
    obtain ⟨bytes, hbytes, hfile⟩ := hwritten e he
    refine ⟨bytes, hbytes, ?_⟩
    rw [hothers _ (ne_stagedPath (by decide) (suffix_generationPath_ne he generation))
      (generationPath_ne_active he generation), hfile]
  rw [Action.meets_bind]
  refine (meets_writeReplacing (by decide) ?_ ?_).mono ?_ fun _ _ h => h
  · exact fun j' hsame => (hsound j₂ hover).of_sameBut (by decide) hsame
  · exact fun j' hpointer hothers hhistory => (hend j' hpointer hothers hhistory).1
  · rintro - j' ⟨hpointer, hothers, hhistory⟩
    exact hend j' hpointer hothers hhistory

/-! ## Commands -/

theorem Sound.eq_nil {j : Bridge} (h : Sound j) (hnone : j.files activeGenerationPath = none) : j.history = [] := by
  rw [Sound] at h
  cases hlast : j.history.getLast? with
  | none => exact List.getLast?_eq_none_iff.mp hlast
  | some source =>
      rw [hlast] at h
      obtain ⟨c, generation, -, hinstalled⟩ := h
      rw [hinstalled.pointer] at hnone
      cases hnone

/-- If there is a pointer, the last of the history is there. -/
theorem Sound.exists_installed {j : Bridge} (h : Sound j) (hsome : j.files activeGenerationPath ≠ none) :
    ∃ source c generation, j.history.getLast? = some source ∧ source.components = .ok c ∧
      Installed j.files c generation := by
  rw [Sound] at h
  cases hlast : j.history.getLast? with
  | none =>
      rw [hlast] at h
      exact absurd h hsome
  | some source =>
      rw [hlast] at h
      obtain ⟨c, generation, hsource, hinstalled⟩ := h
      exact ⟨source, c, generation, rfl, hsource, hinstalled⟩

/-- A bridge with a pointer is initialized. -/
theorem meets_initialize_of_installed (hinv : inv j) (hinstalled : Installed j.files c generation) :
    initialize_.Meets (environment command inv possible) j (fun _ j' => j' = j) (Stopped possible j) := by
  rw [initialize_, Action.meets_bind]
  refine (meets_exists hinv).mono ?_ fun _ _ h => h
  rintro present j' ⟨rfl, rfl⟩
  rw [hinstalled.pointer, Option.isSome_some, if_pos rfl, Action.meets_bind]
  refine (meets_readComponents hinv hinstalled).mono ?_ fun _ _ h => h
  rintro read j'' ⟨rfl, -⟩
  exact rfl

/-- After it is initialized there is a pointer, to what it was to or to the seed. -/
theorem initialize_meets (hj : Sound j) :
    initialize_.Meets (environment command Sound possible) j
      (fun _ j' => Sound j' ∧ j'.files activeGenerationPath ≠ none ∧
        (j'.history = j.history ∨ j'.history = [.seed])) fun _ _ => True := by
  cases hpointer : j.files activeGenerationPath with
  | some file =>
      have hsome : j.files activeGenerationPath ≠ none := by
        rw [hpointer]
        exact Option.some_ne_none _
      obtain ⟨source, c, generation, -, -, hinstalled⟩ := hj.exists_installed hsome
      refine (meets_initialize_of_installed hj hinstalled).mono ?_ fun _ _ _ => trivial
      rintro - j' rfl
      exact ⟨hj, hsome, Or.inl rfl⟩
  | none =>
      have hnil := hj.eq_nil hpointer
      have hapart : Apart j seed := by
        rintro source c₀ hlast
        rw [hnil] at hlast
        cases hlast
      have hnote : noteCommit command (j.files activeGenerationPath).isSome activeGenerationPath j.history =
          j.history ++ [.seed] := by
        rw [hpointer]
        rfl
      rw [initialize_, Action.meets_bind]
      refine (meets_exists hj).mono ?_ fun _ _ h => h
      rintro present j' ⟨rfl, rfl⟩
      rw [hpointer, if_neg (by decide), Action.meets_bind]
      refine (meets_commitComponents isComponents_seed hj rfl hapart hnote).mono ?_ fun _ _ h => h
      rintro generation j'' ⟨hsound, hhistory⟩
      rw [hnil, List.nil_append] at hhistory
      refine ⟨hsound, fun hnone => ?_, Or.inr hhistory⟩
      rw [hsound.eq_nil hnone] at hhistory
      cases hhistory

/-- SHA-256 does not collide on what an import has to commit and what was committed before. -/
def NoCollisions (history : List Source) (stdin : ByteArray) : Prop :=
  ∀ source ∈ .seed :: history, ∀ c₀ c, source.components = .ok c₀ → (Source.archive stdin).components = .ok c →
    Sha256.NoCollision (canonical (.obj c₀)) (canonical (.obj c))

/-- An import that is accepted has committed its archive. -/
theorem meets_importArchive {stdin : ByteArray} (hj : Sound j) (hcollision : NoCollisions j.history stdin) :
    (importArchive stdin).Meets (environment (.import_ stdin) Sound possible) j
      (fun _ j' => Sound j' ∧ j'.history.getLast? = some (.archive stdin)) fun _ _ => True := by
  rw [importArchive, Action.meets_bind]
  refine (initialize_meets hj).mono ?_ fun _ _ h => h
  rintro - j₁ ⟨hj₁, hpointer, hhistory⟩
  rw [Action.meets_bind, Action.meets_lift]
  refine ⟨fun value hvalue => ?_, fun _ _ => trivial⟩
  rw [Action.meets_bind, Action.meets_lift]
  refine ⟨fun c hvalidate => ?_, fun _ _ => trivial⟩
  have hsource : (Source.archive stdin).components = .ok c := Imp.except_bind_eq_ok.mpr ⟨value, hvalue, hvalidate⟩
  have hc := (validateArchive_eq_ok (distinct_of_parse hvalue) hvalidate).1
  have hapart : Apart j₁ c := by
    intro source c₀ hlast hcomponents
    refine hcollision source ?_ c₀ c hcomponents hsource
    rcases hhistory with heq | heq
    · rw [heq] at hlast
      exact List.mem_cons_of_mem _ (List.mem_of_getLast? hlast)
    · rw [heq] at hlast
      obtain rfl : .seed = source := Option.some.inj hlast
      exact List.mem_cons_self
  have hnote : noteCommit (.import_ stdin) (j₁.files activeGenerationPath).isSome activeGenerationPath j₁.history =
      j₁.history ++ [.archive stdin] := by
    rw [Option.isSome_iff_ne_none.mpr hpointer]
    rfl
  rw [Action.meets_bind]
  refine (meets_commitComponents hc hj₁ hsource hapart hnote).mono ?_ fun _ _ h => h
  rintro generation j₂ ⟨hj₂, hhistory₂⟩
  refine ⟨hj₂, ?_⟩
  rw [hhistory₂, List.getLast?_concat]

/-- An export of what the pointer is to. -/
theorem meets_exportArchive {v : Tree} {bytes : ByteArray} (hinv : inv j)
    (hinstalled : Installed j.files c generation) (hsort : v.sort = (archive c).sort)
    (hbytes : canonical v = .ok bytes) :
    exportArchive.Meets (environment command inv possible) j
      (fun out j' => j' = j ∧ out = bytes ++ Py.encode ['\n']) (Stopped possible j) := by
  rw [exportArchive, Action.meets_bind]
  refine (meets_initialize_of_installed hinv hinstalled).mono ?_ fun _ _ h => h
  rintro - j' rfl
  rw [Action.meets_bind]
  refine (meets_readComponents hinv hinstalled).mono ?_ fun _ _ h => h
  rintro read j'' ⟨rfl, rfl⟩
  have hcanonical : canonical (archive (readBack c)) = .ok bytes := by
    rw [canonical_congr (sort_archive_congr (sort_readBack hinstalled.components)), ← canonical_congr hsort, hbytes]
  rw [Action.meets_bind, hcanonical, Action.meets_lift]
  refine ⟨fun out hout => ?_, nofun⟩
  obtain rfl := Except.ok.inj hout
  exact ⟨rfl, rfl⟩

/-- What a command that has returned has done. -/
def Done : Command → ByteArray → Bridge → Prop
  | .import_ stdin, _, j => j.history.getLast? = some (.archive stdin)
  | _, _, _ => True

/-- Every command keeps the state sound. -/
theorem meets_main (hj : Sound j) (hcollision : ∀ stdin, command = .import_ stdin → NoCollisions j.history stdin) :
    (main command).Meets (environment command Sound possible) j (Done command) fun _ _ => True := by
  cases command with
  | serve =>
      rw [main, Action.meets_bind]
      exact (initialize_meets hj).mono (fun _ _ _ => trivial) fun _ _ h => h
  | health =>
      rw [main, Action.meets_bind]
      refine (initialize_meets hj).mono ?_ fun _ _ h => h
      rintro - j₁ ⟨hj₁, hpointer, -⟩
      obtain ⟨source, c, generation, -, -, hinstalled⟩ := hj₁.exists_installed hpointer
      rw [Action.meets_bind]
      exact (meets_readComponents hj₁ hinstalled).mono (fun _ _ _ => trivial) fun _ _ _ => trivial
  | export_ =>
      rw [main, exportArchive, Action.meets_bind]
      refine (initialize_meets hj).mono ?_ fun _ _ h => h
      rintro - j₁ ⟨hj₁, hpointer, -⟩
      obtain ⟨source, c, generation, -, -, hinstalled⟩ := hj₁.exists_installed hpointer
      rw [Action.meets_bind]
      refine (meets_readComponents hj₁ hinstalled).mono ?_ fun _ _ _ => trivial
      rintro read j₂ -
      rw [Action.meets_bind, Action.meets_lift]
      exact ⟨fun _ _ => trivial, fun _ _ => trivial⟩
  | import_ stdin =>
      rw [main]
      exact (meets_importArchive hj (hcollision stdin rfl)).mono (fun _ _ h => h.2) fun _ _ h => h

/-! ## Sequences of commands -/

abbrev BridgeState := CrashFiles.State Path (List Source) Command Failure ByteArray

/-- The bridge: commands one after the other, each of which a crash may cut off before any request. -/
def bridge : Machine BridgeState (Input Path Command) (Option (Command × Except Failure ByteArray)) :=
  CrashFiles.machine Failure.os main noteCommit

/-- The state before the first command: there is no pointer, whatever else there is. -/
def start (files : Files Path) : BridgeState := ⟨⟨files, []⟩, none⟩

/-- Whether SHA-256 does not collide on the imports of a run. -/
def Collisionless (s : BridgeState) : Input Path Command → Prop
  | .start (.import_ stdin) => NoCollisions s.journal.history stdin
  | _ => True

/-- Run code to its end. -/
def runFrom {α : Type} (command : Command) (code : Code α) (j : Bridge) (outcomes : ℕ → Outcome) :
    Except Failure α × Bridge :=
  Program.run (Journal.handle Failure.os (noteCommit command)) code j outcomes

theorem kept_of_reaches {files : Files Path} (hfiles : files activeGenerationPath = none) {s : BridgeState}
    (h : bridge.Reaches Collisionless (start files) s) : Kept Failure.os noteCommit Sound Done s :=
  CrashFiles.kept_of_reaches h ⟨hfiles, nofun⟩
    (fun _ command hsound hallowed => meets_main hsound (by rintro stdin rfl; exact hallowed))
    fun _ left hsound => hsound.crash left

/-- The components that are read back: those of the last one whose pointer was replaced. -/
theorem read_of_sound {j : Bridge} (hj : Sound j) : match j.history.getLast? with
    | none => j.files activeGenerationPath = none
    | some source => ∃ c read, source.components = .ok c ∧ Json.Same (.obj read) (.obj c) ∧
        runFrom .health readComponents j (fun _ => .done) = (.ok read, j) := by
  have hsound := hj
  rw [Sound] at hj
  cases hlast : j.history.getLast? with
  | none =>
      rw [hlast] at hj
      exact hj
  | some source =>
      rw [hlast] at hj
      obtain ⟨c, generation, hsource, hinstalled⟩ := hj
      refine ⟨c, readBack c, hsource, Json.same_of_sort_eq _ _ (sort_readBack hinstalled.components), ?_⟩
      have hmeets : readComponents.Meets (environment .health Sound (· = .done)) j _ _ :=
        meets_readComponents hsound hinstalled
      have hrun := meets_run hmeets (fun _ => .done) fun _ => rfl
      rw [runFrom]
      cases hresult : (readComponents.run (Journal.handle Failure.os (noteCommit .health)) j fun _ => .done) with
      | mk result j' =>
          rw [hresult] at hrun
          cases result with
          | ok read =>
              obtain ⟨rfl, rfl⟩ := hrun
              rfl
          | error e =>
              obtain ⟨-, outcome, rfl, hne⟩ := hrun
              exact absurd rfl hne

/-- An export right after an accepted import. -/
theorem export_of_sound {j : Bridge} (hj : Sound j) {stdin : ByteArray}
    (hlast : j.history.getLast? = some (.archive stdin)) : ∃ a bytes,
      parseInput stdin = .ok a ∧ canonical a = .ok bytes ∧
        runFrom .export_ (main .export_) j (fun _ => .done) = (.ok (bytes ++ Py.encode ['\n']), j) ∧
          ∀ outcomes out, (runFrom .export_ (main .export_) j outcomes).1 = .ok out →
            out = bytes ++ Py.encode ['\n'] := by
  have hsound := hj
  rw [Sound, hlast] at hj
  obtain ⟨c, generation, hsource, hinstalled⟩ := hj
  obtain ⟨a, ha, hvalidate⟩ := Imp.except_bind_eq_ok.mp hsource
  have hsort := (validateArchive_eq_ok (distinct_of_parse ha) hvalidate).2
  obtain ⟨all, hall, -⟩ := Imp.except_bind_eq_ok.mp hinstalled.digest
  have hbytes : canonical a = .ok (Py.encode (Py.canonicalTextUtf8 (archive c))) := by
    rw [canonical_congr hsort]
    exact canonical_eq_ok.mpr ⟨allValid_archive (canonical_eq_ok.mp hall).1, rfl⟩
  refine ⟨a, _, ha, hbytes, ?_, fun outcomes out hout => ?_⟩
  · have hmeets : exportArchive.Meets (environment .export_ Sound (· = .done)) j _ _ :=
      meets_exportArchive hsound hinstalled hsort hbytes
    have hrun := meets_run hmeets (fun _ => .done) fun _ => rfl
    rw [runFrom, main]
    cases hresult : (exportArchive.run (Journal.handle Failure.os (noteCommit .export_)) j fun _ => .done) with
    | mk result j' =>
        rw [hresult] at hrun
        cases result with
        | ok out =>
            obtain ⟨rfl, rfl⟩ := hrun
            rfl
        | error e =>
            obtain ⟨-, outcome, rfl, hne⟩ := hrun
            exact absurd rfl hne
  · have hmeets : exportArchive.Meets (environment .export_ Sound fun _ => True) j _ _ :=
      meets_exportArchive hsound hinstalled hsort hbytes
    have hrun := meets_run hmeets outcomes fun _ => trivial
    rw [runFrom, main] at hout
    rw [hout] at hrun
    exact hrun.2

end Sha256

end StateWeaver.StateBridge

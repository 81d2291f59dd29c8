import StateWeaver.Lib.Machine
import StateWeaver.Lib.Requests

/-!
# Files that survive crashes

Files under paths, the requests that a program makes to them, and crashes. Replacing a file is atomic. What
was written is durable once it was flushed; a crash may leave anything of what was not. `writeReplacing` is
the usual way to write a file through a staged one, and `meets_writeReplacing` says what it does: no request
before the replacement touches another file, and the file that is moved is durable.
-/

namespace CrashFiles

structure File where
  content : ByteArray
  /-- Whether the content was flushed. -/
  synced : Bool

/-- The files that there are. -/
abbrev Files (Path : Type) := Path → Option File

inductive Request (Path : Type) where
  | exists_ (path : Path)
  | read (path : Path)
  /-- Open a file to write it, which empties it. -/
  | openWrite (path : Path)
  | write (path : Path) (bytes : ByteArray)
  | fsync (path : Path)
  | replace (source target : Path)
  | fsyncDirectory (path : Path)

variable {Path : Type}

abbrev Answer : Request Path → Type
  | .exists_ _ => Bool
  | .read _ => ByteArray
  | _ => Unit

/-- How a request goes: it is done or it fails, after it has written something or not. -/
inductive Outcome where
  | done
  | fails
  | failsLeaving (content : ByteArray)

namespace Files

/-- What a crash leaves: files that were not flushed have lost their content. -/
def crash (files : Files Path) (left : Path → ByteArray) : Files Path := fun path =>
  (files path).map fun file => if file.synced then file else { file with content := left path }

theorem crash_of_synced {files : Files Path} {left : Path → ByteArray} {path : Path} {bytes : ByteArray}
    (h : files path = some ⟨bytes, true⟩) : files.crash left path = some ⟨bytes, true⟩ := by
  rw [crash, h]
  rfl

theorem crash_of_none {files : Files Path} {left : Path → ByteArray} {path : Path} (h : files path = none) :
    files.crash left path = none := by
  rw [crash, h]
  rfl

variable [DecidableEq Path]

def set (files : Files Path) (path : Path) (file : Option File) : Files Path :=
  fun p => if p = path then file else files p

@[simp]
theorem set_self (files : Files Path) (path : Path) (file : Option File) : files.set path file path = file :=
  if_pos rfl

theorem set_of_ne (files : Files Path) {path p : Path} (file : Option File) (h : p ≠ path) :
    files.set path file p = files p := if_neg h

variable {ε : Type}

/-- Answer a request; `e` is the exception of a request that fails. -/
def handle (e : ε) (files : Files Path) : (r : Request Path) → Outcome → Except ε (Answer r) × Files Path
  | .exists_ path, _ => (.ok (files path).isSome, files)
  | .read path, .done =>
      match files path with
      | some file => (.ok file.content, files)
      | none => (.error e, files)
  | .openWrite path, .done => (.ok (), files.set path (some ⟨.empty, false⟩))
  | .write path bytes, .done =>
      (.ok (), files.set path (some ⟨((files path).elim .empty File.content) ++ bytes, false⟩))
  | .write path _, .failsLeaving content => (.error e, files.set path (some ⟨content, false⟩))
  | .fsync path, .done => (.ok (), files.set path ((files path).map fun file => { file with synced := true }))
  | .replace source target, .done =>
      match files source with
      | some file => (.ok (), (files.set source none).set target (some file))
      | none => (.error e, files)
  | .fsyncDirectory _, .done => (.ok (), files)
  | _, _ => (.error e, files)

end Files

variable [DecidableEq Path]

/-- The path that a request writes, unless it replaces a file. -/
def Request.writes : Request Path → Option Path
  | .openWrite path | .write path _ | .fsync path => some path
  | _ => none

def Request.isReplace : Request Path → Bool
  | .replace _ _ => true
  | _ => false

variable {ε : Type} {e : ε}

/-- A request that replaces no file changes at most the path that it writes. -/
theorem handle_of_ne {files : Files Path} {r : Request Path} (hr : r.isReplace = false) (outcome : Outcome)
    {path : Path} (hpath : r.writes ≠ some path) : (files.handle e r outcome).2 path = files path := by
  have hset : ∀ {p file}, some p ≠ some path → files.set p file path = files path := fun h =>
    files.set_of_ne _ fun heq => h (congrArg some heq.symm)
  cases r with
  | exists_ p => rfl
  | read p =>
      cases outcome with
      | done =>
          rw [Files.handle]
          split <;> rfl
      | _ => rfl
  | openWrite p =>
      cases outcome with
      | done => exact hset hpath
      | _ => rfl
  | write p bytes =>
      cases outcome with
      | done => exact hset hpath
      | fails => rfl
      | failsLeaving content => exact hset hpath
  | fsync p =>
      cases outcome with
      | done => exact hset hpath
      | _ => rfl
  | replace a b => cases hr
  | fsyncDirectory p => cases outcome <;> rfl

/-- Only a request that is done is answered. -/
theorem eq_done_of_handle {files : Files Path} {r : Request Path} {outcome : Outcome} {a : Answer r}
    (hr : ∀ path, r ≠ .exists_ path) (h : (files.handle e r outcome).1 = .ok a) : outcome = .done := by
  cases r with
  | exists_ path => exact absurd rfl (hr path)
  | _ =>
      cases outcome with
      | done => rfl
      | _ => cases h

/-! ## Requests that are noted -/

/-- Files, and a record of the files that were replaced. -/
structure Journal (Path H : Type) where
  files : Files Path
  history : H

namespace Journal

variable {H : Type} {j j' j'' : Journal Path H}

/-- Whether at most one path differs. -/
def SameBut (path : Path) (j j' : Journal Path H) : Prop :=
  (∀ p, p ≠ path → j'.files p = j.files p) ∧ j'.history = j.history

omit [DecidableEq Path] in
theorem SameBut.refl (path : Path) (j : Journal Path H) : j.SameBut path j := ⟨fun _ _ => rfl, rfl⟩

omit [DecidableEq Path] in
theorem SameBut.trans {path : Path} (h : j.SameBut path j') (h' : j'.SameBut path j'') :
    j.SameBut path j'' :=
  ⟨fun p hp => (h'.1 p hp).trans (h.1 p hp), h'.2.trans h.2⟩

/-- What is noted when a request was answered: a file that was replaced, given whether it was there. -/
def noted (note : Bool → Path → H → H) (j : Journal Path H) : (r : Request Path) → Except ε (Answer r) → H
  | .replace _ target, .ok _ => note (j.files target).isSome target j.history
  | _, _ => j.history

variable (e)

/-- Answer a request and note it. -/
def handle (note : Bool → Path → H → H) (j : Journal Path H) (r : Request Path) (outcome : Outcome) :
    Except ε (Answer r) × Journal Path H :=
  ((j.files.handle e r outcome).1,
    ⟨(j.files.handle e r outcome).2, j.noted note r (j.files.handle e r outcome).1⟩)

/-- The environment in which every request keeps `inv`. -/
def keeping (note : Bool → Path → H → H) (inv : Journal Path H → Prop) (possible : Outcome → Prop) :
    Requests.Environment (Request Path) Answer ε (Journal Path H) where
  allowed j r := ∀ outcome, inv (j.handle e note r outcome).2
  answers j r x j' := ∃ outcome, possible outcome ∧ j.handle e note r outcome = (x, j')

variable {e} {note : Bool → Path → H → H}

theorem sameBut_handle {path : Path} {r : Request Path} (hr : r.isReplace = false)
    (hpath : ∀ p, r.writes = some p → p = path) (outcome : Outcome) :
    j.SameBut path (j.handle e note r outcome).2 := by
  refine ⟨fun _ hp => handle_of_ne hr outcome fun h => hp (hpath _ h), ?_⟩
  cases r with
  | replace a b => cases hr
  | _ => rfl

end Journal

/-! ## Writing a file through a staged one -/

open Requests

/-- Code that works on files. -/
abbrev Code (Path ε α : Type) := Action (Request Path) Answer ε α

/-- Write a file beside its place, flush it and move it there. -/
def writeReplacing (staged path : Path) (bytes : ByteArray) : Code Path ε Unit := do
  let _ ← (Action.request (Request.openWrite staged) : Code Path ε Unit)
  let _ ← (Action.request (Request.write staged bytes) : Code Path ε Unit)
  let _ ← (Action.request (Request.fsync staged) : Code Path ε Unit)
  let _ ← (Action.request (Request.replace staged path) : Code Path ε Unit)
  Action.request (Request.fsyncDirectory path)

variable {H ρ' : Type} {note : Bool → Path → H → H} {inv : Journal Path H → Prop}
  {possible : Outcome → Prop} {j j₁ : Journal Path H}

/-- Reading changes nothing. -/
theorem meets_read {path : Path} (hinv : inv j) :
    (Action.request (Request.read path) : Code Path ε ByteArray).Meets (Journal.keeping e note inv possible) j
      (fun raw j' => j' = j ∧ ∃ synced, j.files path = some ⟨raw, synced⟩)
      fun e' j' => j' = j ∧ e' = e ∧ (j.files path = none ∨ ∃ outcome, possible outcome ∧ outcome ≠ .done) := by
  have hsame : ∀ outcome, (j.handle e note (.read path) outcome).2 = j := by
    intro outcome
    cases outcome with
    | done =>
        rw [Journal.handle, Files.handle]
        cases j.files path <;> rfl
    | _ => rfl
  refine Action.meets_request.mpr ⟨fun outcome => (hsame outcome).symm ▸ hinv, ?_, ?_⟩
  · rintro raw j' ⟨outcome, -, hhandle⟩
    obtain rfl : _ = j' := congrArg Prod.snd hhandle
    obtain rfl := eq_done_of_handle nofun (congrArg Prod.fst hhandle)
    refine ⟨hsame .done, ?_⟩
    have hanswer := congrArg Prod.fst hhandle
    rw [Journal.handle, Files.handle] at hanswer
    cases hfile : j.files path with
    | none =>
        rw [hfile] at hanswer
        cases hanswer
    | some file =>
        rw [hfile] at hanswer
        cases hanswer
        exact ⟨file.synced, rfl⟩
  · rintro e' j' ⟨outcome, hpossible, hhandle⟩
    obtain rfl : _ = j' := congrArg Prod.snd hhandle
    have hanswer := congrArg Prod.fst hhandle
    refine ⟨hsame outcome, ?_⟩
    cases outcome with
    | done =>
        rw [Journal.handle, Files.handle] at hanswer
        cases hfile : j.files path with
        | none =>
            rw [hfile] at hanswer
            cases hanswer
            exact ⟨rfl, Or.inl rfl⟩
        | some file =>
            rw [hfile] at hanswer
            cases hanswer
    | fails =>
        cases hanswer
        exact ⟨rfl, Or.inr ⟨_, hpossible, nofun⟩⟩
    | failsLeaving content =>
        cases hanswer
        exact ⟨rfl, Or.inr ⟨_, hpossible, nofun⟩⟩

theorem meets_exists {path : Path} (hinv : inv j) {R : ε → Journal Path H → Prop} :
    (Action.request (Request.exists_ path) : Code Path ε Bool).Meets (Journal.keeping e note inv possible) j
      (fun b j' => j' = j ∧ b = (j.files path).isSome) R := by
  refine Action.meets_request.mpr ⟨fun _ => hinv, ?_, ?_⟩
  · rintro b j' ⟨outcome, -, hhandle⟩
    cases hhandle
    exact ⟨rfl, rfl⟩
  · rintro e' j' ⟨outcome, -, hhandle⟩
    cases hhandle

/-- A request that touches the staged file only. -/
theorem meets_staged {staged : Path} {r : Request Path} {Q : Answer r → Journal Path H → Prop}
    (hreplace : r.isReplace = false) (hexists : ∀ path, r ≠ .exists_ path)
    (hwrites : ∀ p, r.writes = some p → p = staged)
    (hstaged : ∀ j', j.SameBut staged j' → inv j') (h : j.SameBut staged j₁)
    (hQ : ∀ a j', j.SameBut staged j' → (j₁.handle e note r .done).2 = j' → Q a j') :
    (Action.request r : Code Path ε (Answer r)).Meets (Journal.keeping e note inv possible) j₁ Q
      fun _ _ => True := by
  have hsame : ∀ outcome, j.SameBut staged (j₁.handle e note r outcome).2 := fun outcome =>
    h.trans (j₁.sameBut_handle hreplace hwrites outcome)
  refine Action.meets_request.mpr ⟨fun outcome => hstaged _ (hsame outcome), ?_, fun _ _ _ => trivial⟩
  rintro a j' ⟨outcome, -, hhandle⟩
  obtain rfl := eq_done_of_handle hexists (congrArg Prod.fst hhandle)
  obtain rfl : _ = j' := congrArg Prod.snd hhandle
  exact hQ a _ (hsame .done) rfl

/-- The staged file is written and moved; nothing else is touched. -/
theorem meets_writeReplacing {staged path : Path} {bytes : ByteArray} (hne : path ≠ staged)
    (hstaged : ∀ j', j.SameBut staged j' → inv j')
    (hreplaced : ∀ j', j'.files path = some ⟨bytes, true⟩ →
      (∀ p, p ≠ staged → p ≠ path → j'.files p = j.files p) →
        j'.history = note (j.files path).isSome path j.history → inv j') :
    (writeReplacing staged path bytes : Code Path ε Unit).Meets (Journal.keeping e note inv possible) j
      (fun _ j' => j'.files path = some ⟨bytes, true⟩ ∧
        (∀ p, p ≠ staged → p ≠ path → j'.files p = j.files p) ∧
          j'.history = note (j.files path).isSome path j.history) fun _ _ => True := by
  rw [writeReplacing, Action.meets_bind]
  refine meets_staged rfl nofun (fun p hp => (Option.some.inj hp).symm) hstaged (.refl staged j) ?_
  rintro _ j₁ h₁ hopen
  have hfile₁ : j₁.files staged = some ⟨.empty, false⟩ := by
    rw [← hopen]
    exact Files.set_self _ _ _
  rw [Action.meets_bind]
  refine meets_staged rfl nofun (fun p hp => (Option.some.inj hp).symm) hstaged h₁ ?_
  rintro _ j₂ h₂ hwrite
  have hfile₂ : j₂.files staged = some ⟨bytes, false⟩ := by
    rw [← hwrite]
    refine (Files.set_self _ _ _).trans ?_
    rw [hfile₁, Option.elim_some, ByteArray.empty_append]
  rw [Action.meets_bind]
  refine meets_staged rfl nofun (fun p hp => (Option.some.inj hp).symm) hstaged h₂ ?_
  rintro _ j₃ h₃ hsync
  have hfile₃ : j₃.files staged = some ⟨bytes, true⟩ := by
    rw [← hsync]
    refine (Files.set_self _ _ _).trans ?_
    rw [hfile₂]
    rfl
  have hmoved : j₃.handle e note (.replace staged path) .done = (.ok (),
      ⟨(j₃.files.set staged none).set path (some ⟨bytes, true⟩),
        note (j₃.files path).isSome path j₃.history⟩) := by
    rw [Journal.handle, Files.handle, hfile₃]
    rfl
  have hpath : ((j₃.files.set staged none).set path (some ⟨bytes, true⟩)) path = some ⟨bytes, true⟩ :=
    Files.set_self _ _ _
  have hothers : ∀ p, p ≠ staged → p ≠ path →
      ((j₃.files.set staged none).set path (some ⟨bytes, true⟩)) p = j.files p := by
    intro p hp hp'
    rw [Files.set_of_ne _ _ hp', Files.set_of_ne _ _ hp, h₃.1 p hp]
  have hnote : note (j₃.files path).isSome path j₃.history = note (j.files path).isSome path j.history := by
    rw [h₃.1 path hne, h₃.2]
  have hend := hreplaced ⟨_, _⟩ hpath hothers hnote
  rw [Action.meets_bind, Action.meets_request]
  refine ⟨fun outcome => ?_, ?_, fun _ _ _ => trivial⟩
  · -- Only a replacement that is done has an effect.
    cases outcome with
    | done =>
        rw [hmoved]
        exact hend
    | _ => exact hstaged j₃ h₃
  · rintro _ j₄ ⟨outcome, -, hhandle⟩
    obtain rfl := eq_done_of_handle nofun (congrArg Prod.fst hhandle)
    obtain rfl : _ = j₄ := congrArg Prod.snd (hmoved.symm.trans hhandle)
    rw [Action.meets_request]
    refine ⟨fun outcome => ?_, ?_, fun _ _ _ => trivial⟩
    · cases outcome <;> exact hend
    · rintro _ j₅ ⟨outcome, -, hdirectory⟩
      obtain rfl := eq_done_of_handle nofun (congrArg Prod.fst hdirectory)
      obtain rfl : _ = j₅ := congrArg Prod.snd hdirectory
      exact ⟨hpath, hothers, hnote⟩

/-- What holds of code holds when it runs to its end. -/
theorem meets_run {p : Program (Request Path) Answer ε ρ'} {Q : ρ' → Journal Path H → Prop}
    (h : p.Meets (Journal.keeping e note inv possible) j Q) (outcomes : ℕ → Outcome)
    (hpossible : ∀ n, possible (outcomes n)) :
    Q (p.run (Journal.handle e note) j outcomes).1 (p.run (Journal.handle e note) j outcomes).2 := by
  induction p generalizing j outcomes with
  | done result => exact h
  | call r next ih => exact ih _ (h.2 _ _ ⟨outcomes 0, hpossible 0, rfl⟩) _ fun n => hpossible (n + 1)

/-! ## Commands that are cut off -/

variable {Command ρ : Type}

/-- The files, and the command that is running with what is left of it. -/
structure State (Path H Command ε ρ : Type) where
  journal : Journal Path H
  running : Option (Command × Program (Request Path) Answer ε (Except ε ρ))

inductive Input (Path Command : Type) where
  | start (command : Command)
  /-- The next request of the command goes as told. -/
  | request (outcome : Outcome)
  | finish
  /-- Everything stops; `left` is what is left of content that was not flushed. -/
  | crash (left : Path → ByteArray)

/-- Commands that run one after the other and that a crash may cut off before any request. The output is
what a command has returned or raised. -/
def machine (e : ε) (main : Command → Code Path ε ρ) (note : Command → Bool → Path → H → H) :
    Machine (State Path H Command ε ρ) (Input Path Command) (Option (Command × Except ε ρ)) where
  step s input :=
    match input, s.running with
    | .start command, none => some (none, { s with running := some (command, main command) })
    | .request outcome, some (command, .call r next) =>
        let answered := s.journal.handle e (note command) r outcome
        some (none, ⟨answered.2, some (command, next answered.1)⟩)
    | .finish, some (command, .done result) => some (some (command, result), { s with running := none })
    | .crash left, _ => some (none, ⟨{ s.journal with files := s.journal.files.crash left }, none⟩)
    | _, _ => none

variable {main : Command → Code Path ε ρ} {notes : Command → Bool → Path → H → H}
  {post : Command → ρ → Journal Path H → Prop}

/-- What holds of a state: the invariant of the files, and what is left of the running command keeps it. -/
structure Kept (e : ε) (notes : Command → Bool → Path → H → H) (inv : Journal Path H → Prop)
    (post : Command → ρ → Journal Path H → Prop) (s : State Path H Command ε ρ) : Prop where
  journal : inv s.journal
  running : ∀ command p, s.running = some (command, p) →
    Action.Meets (Journal.keeping e (notes command) inv fun _ => True) p s.journal (post command) fun _ _ => True

/-- What every command keeps, and a crash, holds in every state that is reached. -/
theorem kept_of_reaches {allowed : State Path H Command ε ρ → Input Path Command → Prop}
    {s s' : State Path H Command ε ρ} (h : (machine e main notes).Reaches allowed s s')
    (hstart : Kept e notes inv post s)
    (hmain : ∀ s command, inv s.journal → allowed s (.start command) →
      (main command).Meets (Journal.keeping e (notes command) inv fun _ => True) s.journal (post command)
        fun _ _ => True)
    (hcrash : ∀ j left, inv j → inv { j with files := j.files.crash left }) : Kept e notes inv post s' := by
  refine h.invariant hstart fun s input output s' hs hallowed hstep => ?_
  obtain ⟨j, running⟩ := s
  obtain ⟨hinv, hrunning⟩ := hs
  cases input with
  | start command =>
      cases running with
      | some r => cases hstep
      | none =>
          cases hstep
          refine ⟨hinv, ?_⟩
          rintro c p hp
          cases hp
          exact hmain ⟨j, none⟩ command hinv hallowed
  | request outcome =>
      rcases running with - | ⟨command, result | ⟨r, next⟩⟩
      · cases hstep
      · cases hstep
      · cases hstep
        obtain ⟨hkeep, hnext⟩ := hrunning command _ rfl
        refine ⟨hkeep outcome, ?_⟩
        rintro c p hp
        cases hp
        exact hnext _ _ ⟨outcome, trivial, rfl⟩
  | finish =>
      rcases running with - | ⟨command, result | ⟨r, next⟩⟩
      · cases hstep
      · cases hstep
        exact ⟨hinv, nofun⟩
      · cases hstep
  | crash left =>
      cases hstep
      exact ⟨hcrash j left hinv, nofun⟩

/-- A command that has returned has kept its promise. -/
theorem Kept.finish {s s' : State Path H Command ε ρ} {command : Command} {a : ρ}
    (hs : Kept e notes inv post s)
    (h : (machine e main notes).step s .finish = some (some (command, .ok a), s')) :
    post command a s'.journal ∧ s'.journal = s.journal := by
  obtain ⟨j, running⟩ := s
  rcases running with - | ⟨command', result | ⟨r, next⟩⟩
  · cases h
  · cases h
    exact ⟨hs.running command _ rfl, rfl⟩
  · cases h

end CrashFiles

import StateWeaver.Bridge.Concurrent
import StateWeaver.Bridge.FailClosed

/-!
# Durability under concurrent writers

A rollback deletes by name: a shard whose creation was not confirmed, though another store has created it,
and a shard of its own that another store has made active meanwhile. In runs without such rollbacks every
shard is deleted only by the store that created it, and a generation that was made active keeps its bytes
at all six providers (`durability_spec`).
-/

namespace StateWeaver.Bridge

open Py (Text text)
open Requests (Program)
open Requests.Action (lift)

namespace System

section

variable {Store : Type} [DecidableEq Store]

/-- A rollback deletes a shard only if it was told that it created it or did create it, and never of a
generation that was made active; and a compare-and-swap moves the pointer only if what it has read of the
shards would be answered alike. -/
def Careful (s : System Store) (i : Store × Event) : Prop :=
  ∀ r next trace outcome, s.running i.1 = some ⟨.call r next, trace⟩ → i.2 = .request outcome →
    (∀ p generation, outcome.effect r = .erase p generation → s.world.Removable p generation →
      (trace.ToldCreated p generation ∨ s.creator p generation = some i.1) ∧
        generation ∉ s.promoted) ∧
    ∀ expected generation, outcome.effect r = .activate expected generation →
      s.world.swaps expected generation = true →
        ∀ x ∈ trace, ∀ p raw, x.Shows generation raw p → s.world.answer x.request = x.answer

/-- A step deletes only what its own store has created. -/
def DeletesOwn [Sha256] (s : System Store) (i : Store × Event) : Prop :=
  ∀ o s', s.step i = some (o, s') → ∀ p generation, s.world.shards p generation ≠ none →
    s'.world.shards p generation = none → s.creator p generation = some i.1

/-- A generation keeps its bytes at all six providers for good. -/
def Durable [Sha256] (allowed : System Store → Store × Event → Prop) (s : System Store)
    (generation : Text) : Prop :=
  ∃ raw digest, Exclusive.Complete s.world generation raw digest ∧
    ∀ s', machine.Reaches allowed s s' → Exclusive.Complete s'.world generation raw digest

end

/-! ## What holds between steps -/

variable {Store : Type} {s s' : System Store} {store other : Store} {r : Request} {outcome : Outcome}
  {p : Provider} {generation : Text}

section

variable [Sha256]

/-- What holds of the stores and the providers between steps. -/
structure Sound (s : System Store) : Prop where
  /-- Every call keeps to the rules. -/
  meets {store : Store} {run : Running} : s.running store = some run →
    run.rest.Meets Trace.environment run.trace fun _ _ => True
  /-- What a store was told that it created, and has not deleted since, is there and its own. -/
  told {store : Store} {run : Running} {p : Provider} {generation : Text} :
    s.running store = some run → run.trace.ToldCreated p generation →
      (p, generation) ∉ run.trace.erased →
        s.world.shards p generation ≠ none ∧ s.creator p generation = some store
  /-- A queue that a store has just declared is empty and its own. -/
  declared {store : Store} {run : Running} {generation : Text} : s.running store = some run →
    run.trace.getLast? = some ⟨.putQueue generation, .ok true⟩ →
      s.world.shards .rabbitmq generation = some [] ∧ s.creator .rabbitmq generation = some store
  promoted {generation : Text} : generation ∈ s.promoted →
    ∃ raw digest, Exclusive.Complete s.world generation raw digest

theorem sound_start (w : World) : Sound (start w : System Store) :=
  ⟨nofun, nofun, nofun, fun h => absurd h List.not_mem_nil⟩

variable {next : Except Exc (Answer r) → Program Request Answer Exc (Except Exc Capture)} {trace : Trace}

/-- A store deletes only what it has created, and nothing that was made active. -/
theorem Sound.creator_of_erase (hs : Sound s) (hcareful : Careful s (store, .request outcome))
    (hrunning : s.running store = some ⟨.call r next, trace⟩)
    (herase : outcome.effect r = .erase p generation) (hremovable : s.world.Removable p generation) :
    s.creator p generation = some store ∧ generation ∉ s.promoted := by
  obtain ⟨htold, hpromoted⟩ := (hcareful r next trace outcome hrunning rfl).1 p generation herase hremovable
  refine ⟨?_, hpromoted⟩
  rcases htold with htold | hcreator
  · have hallowed : trace.Allows r := (hs.meets hrunning).1
    rw [Trace.Allows, Outcome.effect_of_erase herase] at hallowed
    exact (hs.told hrunning htold hallowed).2
  · exact hcreator

/-- What another store has created stays. -/
theorem Sound.protects_of_other (hs : Sound s) (hcareful : Careful s (store, .request outcome))
    (hrunning : s.running store = some ⟨.call r next, trace⟩) (hne : s.world.shards p generation ≠ none)
    (hother : s.creator p generation ≠ some store) (herase : outcome.effect r = .erase p generation) :
    s.world.protects p generation = true := by
  refine Bool.eq_true_of_not_eq_false fun hprotects => hother ?_
  exact (hs.creator_of_erase hcareful hrunning herase ⟨hne, hprotects⟩).1

/-- A store publishes to an empty queue of its own. -/
theorem Sound.declared_of_enqueue (hs : Sound s) (hrunning : s.running store = some ⟨.call r next, trace⟩)
    {payload : Text} (henqueue : outcome.effect r = .enqueue generation payload) :
    s.world.shards .rabbitmq generation = some [] ∧ s.creator .rabbitmq generation = some store := by
  have hallowed : trace.Allows r := (hs.meets hrunning).1
  rw [Trace.Allows, Outcome.effect_of_enqueue henqueue] at hallowed
  exact hs.declared hrunning hallowed

end

/-! ## One step -/

variable [DecidableEq Store] [Sha256]
  {next : Except Exc (Answer r) → Program Request Answer Exc (Except Exc Capture)}
  {trace : Trace}

/-- A request keeps the bytes of what was made active. -/
theorem Sound.complete_exchange (hs : Sound s) (hcareful : Careful s (store, .request outcome))
    (hrunning : s.running store = some ⟨.call r next, trace⟩) {raw : ByteArray} {digest : Text}
    (hpromoted : generation ∈ s.promoted) (h : Exclusive.Complete s.world generation raw digest) :
    Exclusive.Complete (s.exchange store r outcome).2.world generation raw digest := by
  refine ⟨h.valid, fun p => (h.holds p).congr ?_⟩
  obtain ⟨content, hcontent, hread⟩ := h.holds p
  have hne : s.world.shards p generation ≠ none := by rw [hcontent]; exact Option.some_ne_none _
  rw [exchange_world]
  refine World.shards_apply hne (fun herase => ?_) fun payload henqueue => ?_
  · refine Bool.eq_true_of_not_eq_false fun hprotects => ?_
    exact (hs.creator_of_erase hcareful hrunning herase ⟨hne, hprotects⟩).2 hpromoted
  · rintro rfl
    rw [(hs.declared_of_enqueue hrunning henqueue).1] at hcontent
    obtain rfl := Option.some.inj hcontent
    cases hread

/-- The pointer moves only to six equal valid shards. -/
theorem Sound.complete_of_promotes (hs : Sound s) (hcareful : Careful s (store, .request outcome))
    (hrunning : s.running store = some ⟨.call r next, trace⟩)
    (hpromotes : generation ∈ s.world.promotes (outcome.effect r)) :
    ∃ raw digest, Exclusive.Complete (s.exchange store r outcome).2.world generation raw digest := by
  rw [exchange_world]
  cases heffect : outcome.effect r with
  | activate expected next' =>
      rw [heffect, World.promotes] at hpromotes
      by_cases hswaps : s.world.swaps expected next' = true
      · rw [if_pos hswaps, List.mem_singleton] at hpromotes
        subst hpromotes
        have hallowed : trace.Allows r := (hs.meets hrunning).1
        rw [Trace.Allows, Outcome.effect_of_activate heffect] at hallowed
        obtain ⟨raw, digest, hvalid, hsaw⟩ := hallowed
        have halike := (hcareful r next trace outcome hrunning rfl).2 expected generation heffect hswaps
        refine ⟨raw, digest, hvalid, fun p => ?_⟩
        obtain ⟨x, hx, hshows⟩ := hsaw p
        refine (World.holds_of_shows hshows (halike x hx p raw hshows)).congr ?_
        rw [World.apply, if_pos hswaps]
      · rw [if_neg hswaps] at hpromotes
        cases hpromotes
  | _ =>
      rw [heffect] at hpromotes
      cases hpromotes

/-- What another store has created is still there, and still its own. -/
theorem Sound.kept_of_other (hs : Sound s) (hcareful : Careful s (store, .request outcome))
    (hrunning : s.running store = some ⟨.call r next, trace⟩) (hne : other ≠ store)
    (hsome : s.world.shards p generation ≠ none) (hcreator : s.creator p generation = some other) :
    (s.exchange store r outcome).2.world.shards p generation ≠ none ∧
      (s.exchange store r outcome).2.creator p generation = some other := by
  have hother : s.creator p generation ≠ some store := by
    rw [hcreator]
    exact fun h => hne (Option.some.inj h)
  exact ⟨ne_none_of_exchange hsome (hs.protects_of_other hcareful hrunning hsome hother),
    (exchange_creator_of_ne_none hsome).trans hcreator⟩

/-- What a store was told that it created is there and its own, until it deletes it. -/
theorem Sound.told_exchange (hs : Sound s) (hrunning : s.running store = some ⟨.call r next, trace⟩)
    (htold : Trace.ToldCreated (trace ++ [⟨r, (s.exchange store r outcome).1⟩]) p generation)
    (hnew : (p, generation) ∉ Trace.erased (trace ++ [⟨r, (s.exchange store r outcome).1⟩])) :
    (s.exchange store r outcome).2.world.shards p generation ≠ none ∧
      (s.exchange store r outcome).2.creator p generation = some store := by
  rw [Trace.erased, List.filterMap_append, List.mem_append, not_or] at hnew
  obtain ⟨x, hx, ⟨content, heffect⟩, a, ha, htells⟩ := htold
  rcases List.mem_append.mp hx with hx | hx
  · obtain ⟨hsome, hcreator⟩ := hs.told hrunning ⟨x, hx, ⟨content, heffect⟩, a, ha, htells⟩ hnew.1
    refine ⟨ne_none_of_exchange hsome fun herase => ?_, (exchange_creator_of_ne_none hsome).trans hcreator⟩
    have herased : (Exchange.mk r (s.exchange store r outcome).1).erased = some (p, generation) := by
      rw [Exchange.erased, Outcome.effect_of_erase herase]
    rw [List.filterMap_cons_some herased] at hnew
    exact absurd List.mem_cons_self hnew.2
  · obtain rfl := List.mem_singleton.mp hx
    obtain ⟨hsome, hcreator⟩ := created_of_tells ha htells heffect
    refine ⟨?_, hcreator⟩
    rw [hsome]
    exact Option.some_ne_none _

/-- A queue that another store has just declared stays empty. -/
theorem Sound.declared_of_other (hs : Sound s) (hcareful : Careful s (store, .request outcome))
    (hrunning : s.running store = some ⟨.call r next, trace⟩) (hne : other ≠ store)
    (hempty : s.world.shards .rabbitmq generation = some [])
    (hcreator : s.creator .rabbitmq generation = some other) :
    (s.exchange store r outcome).2.world.shards .rabbitmq generation = some [] := by
  have hsome : s.world.shards .rabbitmq generation ≠ none := by
    rw [hempty]
    exact Option.some_ne_none _
  have hother : s.creator .rabbitmq generation ≠ some store := by
    rw [hcreator]
    exact fun h => hne (Option.some.inj h)
  rw [exchange_world, World.shards_apply hsome (hs.protects_of_other hcareful hrunning hsome hother)
    fun payload henqueue => absurd (hs.declared_of_enqueue hrunning henqueue).2 hother]
  exact hempty

/-- A request keeps what holds. -/
theorem Sound.exchange (hs : Sound s) (hcareful : Careful s (store, .request outcome))
    (hrunning : s.running store = some ⟨.call r next, trace⟩) :
    Sound ((s.exchange store r outcome).2.setRunning store
      (some ⟨next (s.exchange store r outcome).1, trace ++ [⟨r, (s.exchange store r outcome).1⟩]⟩)) := by
  refine ⟨fun {b run} hb => ?_, fun {b run p generation} hb htold hnew => ?_,
    fun {b run generation} hb hlast => ?_, fun {generation} hpromoted => ?_⟩
  · by_cases hstore : b = store
    · subst hstore
      obtain rfl := Option.some.inj (setRunning_self.symm.trans hb)
      exact (hs.meets hrunning).2 _ _ rfl
    · rw [setRunning_of_ne hstore, exchange_running] at hb
      exact hs.meets hb
  · by_cases hstore : b = store
    · subst hstore
      obtain rfl := Option.some.inj (setRunning_self.symm.trans hb)
      exact hs.told_exchange hrunning htold hnew
    · rw [setRunning_of_ne hstore, exchange_running] at hb
      obtain ⟨hsome, hcreator⟩ := hs.told hb htold hnew
      exact hs.kept_of_other hcareful hrunning hstore hsome hcreator
  · by_cases hstore : b = store
    · subst hstore
      obtain rfl := Option.some.inj (setRunning_self.symm.trans hb)
      rw [List.getLast?_concat] at hlast
      obtain ⟨rfl, hanswer⟩ := Exchange.mk.inj (Option.some.inj hlast)
      have heffect : (Request.putQueue generation).effect = .create .rabbitmq generation [] := rfl
      exact created_of_tells (eq_of_heq hanswer) rfl heffect
    · rw [setRunning_of_ne hstore, exchange_running] at hb
      obtain ⟨hempty, hcreator⟩ := hs.declared hb hlast
      refine ⟨hs.declared_of_other hcareful hrunning hstore hempty hcreator, ?_⟩
      exact (hs.kept_of_other hcareful hrunning hstore (hempty ▸ Option.some_ne_none _) hcreator).2
  · rcases List.mem_append.mp ((exchange_promoted s store r outcome) ▸ hpromoted) with hmem | hmem
    · exact hs.complete_of_promotes hcareful hrunning hmem
    · obtain ⟨raw, digest, hcomplete⟩ := hs.promoted hmem
      exact ⟨raw, digest, hs.complete_exchange hcareful hrunning hmem hcomplete⟩

/-- Entering or leaving a call keeps what holds. -/
theorem Sound.setRunning (hs : Sound s) {running : Option Running}
    (hrunning : ∀ run, running = some run → run.trace = [] ∧
      run.rest.Meets Trace.environment run.trace fun _ _ => True) : Sound (s.setRunning store running) := by
  have hself : ∀ {run}, (s.setRunning store running).running store = some run → run.trace = [] ∧
      run.rest.Meets Trace.environment run.trace fun _ _ => True := fun h =>
    hrunning _ (setRunning_self.symm.trans h)
  refine ⟨fun {b run} hb => ?_, fun {b run p generation} hb htold hnew => ?_,
    fun {b run generation} hb hlast => ?_, hs.promoted⟩
  · by_cases hstore : b = store
    · subst hstore
      exact (hself hb).2
    · exact hs.meets (setRunning_of_ne hstore ▸ hb)
  · by_cases hstore : b = store
    · subst hstore
      obtain ⟨x, hx, -⟩ := htold
      rw [(hself hb).1] at hx
      cases hx
    · exact hs.told (setRunning_of_ne hstore ▸ hb) htold hnew
  · by_cases hstore : b = store
    · subst hstore
      rw [(hself hb).1] at hlast
      cases hlast
    · exact hs.declared (setRunning_of_ne hstore ▸ hb) hlast

theorem Sound.step {i : Store × Event} {o : Option (Except Exc Capture)} (hs : Sound s)
    (hcareful : Careful s i) (hstep : s.step i = some (o, s')) : Sound s' := by
  obtain ⟨store, event⟩ := i
  rcases step_cases hstep with ⟨call, rfl⟩ | ⟨outcome, r, next, trace, rfl, hrunning, rfl⟩ | rfl
  · refine hs.setRunning ?_
    rintro run hrun
    obtain rfl := Option.some.inj hrun
    refine ⟨rfl, Program.Meets.mono (meets_action call) fun _ _ _ => trivial⟩
  · exact hs.exchange hcareful hrunning
  · exact hs.setRunning nofun

theorem Sound.deletesOwn {i : Store × Event} (hs : Sound s) (hcareful : Careful s i) : DeletesOwn s i := by
  obtain ⟨store, event⟩ := i
  intro o s' hstep p generation hsome hnone
  rcases step_cases hstep with ⟨call, rfl⟩ | ⟨outcome, r, next, trace, rfl, hrunning, rfl⟩ | rfl
  · exact absurd hnone hsome
  · refine by_contra fun hother => ne_none_of_exchange hsome (fun herase => ?_) hnone
    exact hs.protects_of_other hcareful hrunning hsome hother herase
  · exact absurd hnone hsome

/-- What was made active stays so, with its bytes. -/
theorem Sound.complete_step {i : Store × Event} {o : Option (Except Exc Capture)} (hs : Sound s)
    (hcareful : Careful s i) (hstep : s.step i = some (o, s')) {raw : ByteArray} {digest : Text}
    (hpromoted : generation ∈ s.promoted) (hcomplete : Exclusive.Complete s.world generation raw digest) :
    generation ∈ s'.promoted ∧ Exclusive.Complete s'.world generation raw digest := by
  obtain ⟨store, event⟩ := i
  rcases step_cases hstep with ⟨call, rfl⟩ | ⟨outcome, r, next, trace, rfl, hrunning, rfl⟩ | rfl
  · exact ⟨hpromoted, hcomplete⟩
  · refine ⟨?_, hs.complete_exchange hcareful hrunning hpromoted hcomplete⟩
    change generation ∈ (s.exchange store r outcome).2.promoted
    rw [exchange_promoted]
    exact List.mem_append_right _ hpromoted
  · exact ⟨hpromoted, hcomplete⟩

theorem sound_of_reaches {w : World} (h : machine.Reaches Careful (start w) s) : Sound s :=
  h.invariant (P := Sound) (sound_start w) fun _ _ _ _ hs hcareful hstep => hs.step hcareful hstep

/-- The pointer refers to a generation that a compare-and-swap has made active. -/
theorem mem_promoted {w : World} {allowed : System Store → Store × Event → Prop} (hw : w.activeGeneration = none)
    (h : machine.Reaches allowed (start w) s) (hactive : s.world.activeGeneration = some generation) :
    generation ∈ s.promoted := by
  have hinvariant := h.invariant
    (P := fun t => ∀ generation, t.world.activeGeneration = some generation → generation ∈ t.promoted)
    (fun generation hstart => by
      rw [start, hw] at hstart
      cases hstart) ?_
  · exact hinvariant generation hactive
  · rintro t ⟨store, event⟩ o t' ht - hstep generation hactive
    rcases step_cases hstep with ⟨call, rfl⟩ | ⟨outcome, r, next, trace, rfl, hrunning, rfl⟩ | rfl
    · exact ht generation hactive
    · change (t.exchange store r outcome).2.world.activeGeneration = some generation at hactive
      change generation ∈ (t.exchange store r outcome).2.promoted
      rw [exchange_world] at hactive
      rw [exchange_promoted, List.mem_append]
      exact (World.activeGeneration_apply hactive).imp_right (ht generation)
    · exact ht generation hactive

/-! ## A store that goes on alone -/

variable {raw : ByteArray} {digest : Text}

/-- A store alone stages what no shard contradicts. -/
theorem reaches_stage (hrunning : s.running store = none) (hhealthy : s.poisoned store = false)
    (hvalid : validateCheckpointBytes raw = .ok (raw, generation, digest))
    (hown : ∀ p generation', ¬ Exclusive.Foreign s.world p generation' raw) :
    ∃ s', machine.Reaches Machine.anyStep s s' ∧ s'.running = s.running ∧ s'.poisoned store = false ∧
      s'.world.activeGeneration = s.world.activeGeneration ∧
      Exclusive.Complete s'.world generation raw digest := by
  have hmeets : (StoreCall.stage raw).action.Meets Exclusive.environment
      ⟨s.poisoned store, s.world, [], false⟩ _ _ := Exclusive.meets_stage raw hhealthy
  obtain ⟨s', e, hreach, hrunning', hpoisoned, hworld, hfaultless, ⟨captured, hstages⟩ | ⟨error, hfailed⟩⟩ :=
    reaches_call hrunning hmeets
  · obtain ⟨generation', digest', hcomplete, -⟩ := hstages.captured
    obtain ⟨rfl, rfl⟩ := Prod.mk.inj (Prod.mk.inj (Except.ok.inj (hvalid.symm.trans hcomplete.valid))).2
    rw [hworld] at hcomplete
    refine ⟨s', hreach, hrunning', ?_, ?_, hcomplete⟩
    · rw [← hpoisoned, hstages.poisoned]
      exact hhealthy
    · rw [← hworld]
      exact hstages.activeGeneration
  · refine absurd hfailed ?_
    rintro (⟨hrejected, -⟩ | ⟨-, hpoisons⟩)
    · rw [hvalid] at hrejected
      cases hrejected
    · rcases hpoisons.cause with hfaulty | ⟨p, generation', hforeign⟩
      · rw [hfaultless] at hfaulty
        cases hfaulty
      · exact hown p generation' hforeign

/-- A store alone makes a complete generation active where none is. -/
theorem reaches_compareAndSwap (hrunning : s.running store = none) (hhealthy : s.poisoned store = false)
    (hactive : s.world.activeGeneration = none) (hcomplete : Exclusive.Complete s.world generation raw digest) :
    ∃ s', machine.Reaches Machine.anyStep s s' ∧ s'.running = s.running ∧
      s'.world.activeGeneration = some generation := by
  have hmeets : (StoreCall.compareAndSwap none generation).action.Meets Exclusive.environment
      ⟨s.poisoned store, s.world, [], false⟩ _ _ := Exclusive.meets_compareAndSwap hhealthy
  obtain ⟨s', e, hreach, hrunning', -, hworld, hfaultless, ⟨captured, -, hmoved⟩ | ⟨error, -, hcause⟩⟩ :=
    reaches_call hrunning hmeets
  · exact ⟨s', hreach, hrunning', hworld ▸ hmoved⟩
  · refine absurd hcause ?_
    rintro (hfaulty | hother | hincomplete)
    · rw [hfaultless] at hfaulty
      cases hfaulty
    · exact hother hactive
    · exact hincomplete ⟨nofun, raw, digest, hcomplete⟩

end System

section

variable {Store : Type} [DecidableEq Store] [Sha256]

namespace System

/-- A store that was told that it created its row goes on with Redis. -/
theorem leads_stage {raw : ByteArray} {generation digest : Text}
    (hvalid : validateCheckpointBytes raw = .ok (raw, generation, digest)) :
    ∃ k : Except Exc (List Provider × Except Exc Unit) → Call Capture, Leads (StoreCall.stage raw).action
      [⟨.getPoisoned, .ok false⟩, ⟨.selectCheckpoint generation, .ok []⟩,
        ⟨.insertCheckpoint generation ⟨digest, checkpointHash raw, Py.b64encode raw⟩,
          .ok [[some generation]]⟩,
        ⟨.selectCheckpoint generation, .ok [[some (Py.b64encode raw)]]⟩]
      (Program.bind (RealProviderLabStateStore.stageFrom raw generation digest
        (checkpointProviders.drop 1) [.postgres]) k) ∧
      ∀ e, k (.ok ([.postgres, .redis], .error e)) =
        (do RealProviderLabStateStore.rollback generation [.redis, .postgres]
            RealProviderLabStateStore.poison) := by
  have hstager : Leads (checkpointPgStage raw generation digest)
      [⟨.insertCheckpoint generation ⟨digest, checkpointHash raw, Py.b64encode raw⟩,
          .ok [[some generation]]⟩,
        ⟨.selectCheckpoint generation, .ok [[some (Py.b64encode raw)]]⟩] (.done (.ok true)) := by
    have hrows : (require ([[some generation]] = [] ∨ [[some generation]] = [[some generation]])
        (.checkpoint "checkpoint-postgres-invalid") : Call Unit) = .done (.ok ()) := by
      rw [require, Imp.require, if_pos (Or.inr rfl), lift]
    have hsame : (require (some raw = some raw) (.checkpoint "checkpoint-postgres-readback-failed") :
        Call Unit) = .done (.ok ()) := by
      rw [require, Imp.require, if_pos rfl, lift]
    have hread : Leads (checkpointPgRead generation)
        [⟨.selectCheckpoint generation, .ok [[some (Py.b64encode raw)]]⟩] (.done (.ok (some raw))) := by
      refine ⟨_, rfl, ?_⟩
      change (do return some (← lift (checkpointDecoded (some (Py.b64encode raw)))) :
        Call (Option ByteArray)) = _
      rw [Exclusive.decoded_encoded (size_of_validate hvalid)]
      rfl
    refine ⟨_, rfl, ?_⟩
    change Leads (Requests.Action.bind (require ([[some generation]] = [] ∨ [[some generation]] =
      [[some generation]]) _) _) _ _
    rw [hrows]
    refine Leads.trans (t := [_]) (hread.bind _) ?_
    change Requests.Action.bind (require (some raw = some raw) _) _ = _
    rw [hsame]
    rfl
  have hloop : Leads (RealProviderLabStateStore.stageFrom raw generation digest checkpointProviders [])
      ([⟨.selectCheckpoint generation, .ok []⟩] ++
        [⟨.insertCheckpoint generation ⟨digest, checkpointHash raw, Py.b64encode raw⟩,
          .ok [[some generation]]⟩,
        ⟨.selectCheckpoint generation, .ok [[some (Py.b64encode raw)]]⟩])
      (RealProviderLabStateStore.stageFrom raw generation digest (checkpointProviders.drop 1) [.postgres]) := by
    refine ⟨_, rfl, ?_⟩
    exact (hstager.bind _).bind _
  apply Exists.intro
  constructor
  · refine ⟨_, rfl, ?_⟩
    change Leads (Requests.Action.bind (lift (validateCheckpointBytes raw)) _) _ _
    rw [hvalid]
    exact hloop.bind _
  · intro e
    rfl

/-- If the request to Redis raises then, the store deletes the key. -/
theorem leads_redisSet {raw : ByteArray} {generation digest : Text}
    (hvalid : validateCheckpointBytes raw = .ok (raw, generation, digest)) :
    ∃ next next', Leads (StoreCall.stage raw).action
      [⟨.getPoisoned, .ok false⟩, ⟨.selectCheckpoint generation, .ok []⟩,
        ⟨.insertCheckpoint generation ⟨digest, checkpointHash raw, Py.b64encode raw⟩,
          .ok [[some generation]]⟩,
        ⟨.selectCheckpoint generation, .ok [[some (Py.b64encode raw)]]⟩, ⟨.redisGet generation, .ok none⟩]
      (.call (.redisSet generation (Py.b64encode raw)) next) ∧
      next (.error (.other "OSError")) = .call (.redisDel generation) next' := by
  obtain ⟨k, hleads, hk⟩ := leads_stage hvalid
  have hset : ∃ next, Leads (RealProviderLabStateStore.stageFrom raw generation digest
        (checkpointProviders.drop 1) [.postgres]) [⟨.redisGet generation, .ok none⟩]
      (.call (.redisSet generation (Py.b64encode raw)) next) ∧
      next (.error (.other "OSError")) = .done (.ok ([.postgres, .redis], .error (.other "OSError"))) :=
    ⟨_, ⟨_, rfl, rfl⟩, rfl⟩
  obtain ⟨next, hset, hnext⟩ := hset
  have hdelete : ∃ next', (do RealProviderLabStateStore.rollback generation [.redis, .postgres]
                              RealProviderLabStateStore.poison : Call Capture) =
      .call (.redisDel generation) next' := ⟨_, rfl⟩
  obtain ⟨next', hdelete⟩ := hdelete
  refine ⟨fun x => (next x).bind k, next', hleads.trans (hset.bind k), ?_⟩
  change (next (.error (.other "OSError"))).bind k = _
  rw [hnext, Program.bind, hk, hdelete]

/-- What the store requests until then. -/
def rowRequests (raw : ByteArray) (generation digest : Text) : List (Request × Outcome) :=
  [(.getPoisoned, .answered), (.selectCheckpoint generation, .answered),
    (.insertCheckpoint generation ⟨digest, checkpointHash raw, Py.b64encode raw⟩, .answered),
    (.selectCheckpoint generation, .answered), (.redisGet generation, .answered)]

/-- Over empty providers the store is told that it created its row, and finds no key. -/
theorem exchanges_rowRequests (raw : ByteArray) (generation digest : Text) :
    ((start World.empty : System Bool).exchanges false (rowRequests raw generation digest)).1 =
      [⟨.getPoisoned, .ok false⟩, ⟨.selectCheckpoint generation, .ok []⟩,
        ⟨.insertCheckpoint generation ⟨digest, checkpointHash raw, Py.b64encode raw⟩,
          .ok [[some generation]]⟩,
        ⟨.selectCheckpoint generation, .ok [[some (Py.b64encode raw)]]⟩,
        ⟨.redisGet generation, .ok none⟩] := by
  have hread : ∀ row : Row, (World.empty.setShard .postgres generation (some row)).answer
      (.selectCheckpoint generation) = .ok [[some row.checkpointBase64]] := fun row => by
    rw [World.answer, World.setShard_self]
    rfl
  have hexchanges : ((start World.empty : System Bool).exchanges false
      (rowRequests raw generation digest)).1 =
      [⟨.getPoisoned, .ok false⟩, ⟨.selectCheckpoint generation, .ok []⟩,
        ⟨.insertCheckpoint generation ⟨digest, checkpointHash raw, Py.b64encode raw⟩,
          .ok [[some generation]]⟩,
        ⟨.selectCheckpoint generation, (World.empty.setShard .postgres generation
          (some ⟨digest, checkpointHash raw, Py.b64encode raw⟩)).answer (.selectCheckpoint generation)⟩,
        ⟨.redisGet generation, .ok none⟩] := rfl
  rw [hexchanges, hread]

/-- One store has created its row and has found no key, and the other has not begun. -/
theorem reaches_redisSet {raw : ByteArray} {generation digest : Text}
    (hvalid : validateCheckpointBytes raw = .ok (raw, generation, digest)) :
    ∃ (s : System Bool) (next : _) (next' : _) (trace : Trace),
      machine.Reaches Machine.anyStep (start World.empty) s ∧ s.running true = none ∧
      s.poisoned true = false ∧
      s.world = World.empty.setShard .postgres generation
        (some ⟨digest, checkpointHash raw, Py.b64encode raw⟩) ∧
      s.running false = some ⟨.call (.redisSet generation (Py.b64encode raw)) next, trace⟩ ∧
      next (.error (.other "OSError")) = .call (.redisDel generation) next' := by
  obtain ⟨next, next', hleads, hnext⟩ := leads_redisSet hvalid
  have hstart : machine.step (start World.empty : System Bool) (false, .start (.stage raw)) =
      some (none, (start World.empty).setRunning false (some ⟨(StoreCall.stage raw).action, []⟩)) := rfl
  rw [← exchanges_rowRequests raw generation digest] at hleads
  have hrest := reaches_exchanges_setRunning [] hleads
  exact ⟨_, next, next', _, (Machine.Reaches.step (.refl _) trivial hstart).trans hrest,
    setRunning_of_ne (by decide), rfl, rfl, setRunning_self, hnext⟩

end System

end

end StateWeaver.Bridge

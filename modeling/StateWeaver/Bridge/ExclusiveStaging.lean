import StateWeaver.Bridge.Exclusive

/-!
# Staging and deleting with exclusive access

A stager never changes a shard that was there before, and when it returns its shard holds the bytes. A
deleter leaves no shard unless its deletion raised.
-/

namespace StateWeaver.Bridge

open Py (Text text)
open Requests.Action (lift raise onError attempt meets_bind meets_onError meets_lift meets_ite)

namespace Exclusive

variable {s s' s'' : Exclusive} {p : Provider} {generation : Text} {raw : ByteArray}

/-! ## Stagers -/

/-- A shard may have been added where none was. -/
structure Adds (p : Provider) (generation : Text) (s s' : Exclusive) : Prop
    extends Touches p generation s s' where
  kept : s.world.shards p generation ≠ none →
    s'.world.shards p generation = s.world.shards p generation

theorem Quiet.adds (h : Quiet s s') : Adds p generation s s' :=
  ⟨h.touches, fun _ => by rw [h.shards]⟩

theorem Adds.trans (h : Adds p generation s s') (h' : Adds p generation s' s'') :
    Adds p generation s s'' := by
  refine ⟨h.toTouches.trans h'.toTouches, fun hne => ?_⟩
  rw [h'.kept (by rwa [h.kept hne]), h.kept hne]

/-- A shard that does not hold some bytes. -/
def Foreign (w : World) (p : Provider) (generation : Text) (raw : ByteArray) : Prop :=
  ∃ content, w.shards p generation = some content ∧ readContent p content ≠ some raw

/-- Code that stages bytes as the shard of a generation at a provider. -/
def IsStager (action : Call Bool) (p : Provider) (generation : Text) (raw : ByteArray) : Prop :=
  ∀ s, action.Meets environment s
    (fun created s' => Adds p generation s s' ∧ s'.world.Holds p generation raw ∧
      created = (s.world.shards p generation).isNone)
    fun e s' => Adds p generation s s' ∧ e.isUnowned = false ∧
      (s'.faulty = true ∨ Foreign s.world p generation raw)

theorem Foreign.congr {w w' : World} (h : Foreign w p generation raw)
    (hshards : w'.shards p generation = w.shards p generation) : Foreign w' p generation raw := by
  obtain ⟨content, hcontent, hread⟩ := h
  exact ⟨content, hshards.trans hcontent, hread⟩

theorem Spoilt.foreign {w : World} (h : Spoilt w p generation) : Foreign w p generation raw := by
  obtain ⟨content, hcontent, hread⟩ := h
  exact ⟨content, hcontent, by rw [hread]; exact Option.some_ne_none raw |>.symm⟩

theorem not_foreign_of_holds {w : World} (h : w.Holds p generation raw) :
    ¬ Foreign w p generation raw := by
  rintro ⟨content, hcontent, hread⟩
  obtain ⟨content', hcontent', hread'⟩ := h
  obtain rfl := Option.some.inj (hcontent.symm.trans hcontent')
  exact hread hread'

theorem adds_after (r : Request) (content : Content p) (raised faulty : Bool) :
    Adds p generation s (s.after r (.create p generation content) raised faulty) := by
  have hfaulty : s.faulty = true →
      (s.after r (.create p generation content) raised faulty).faulty = true := fun h => by
    rw [after, h, Bool.true_or]
  have hworld : (s.after r (.create p generation content) raised faulty).world =
      if (s.world.shards p generation).isSome then s.world
        else s.world.setShard p generation (some content) := rfl
  refine ⟨⟨⟨rfl, ?_, List.prefix_append _ _, hfaulty⟩, fun p' generation' hne => ?_⟩, fun hne => ?_⟩
  · rw [hworld]
    split
    · rfl
    · rfl
  · rw [hworld]
    split
    · rfl
    · exact World.setShard_of_ne hne
  · rw [hworld, if_pos (Option.isSome_iff_ne_none.mpr hne)]

/-- A request that creates a shard. -/
theorem ask_create {r : Request} {a : Answer r} {content : Content p}
    (hanswer : s.world.answer r = .ok a) (h : Request.isProvider r = true)
    (heffect : r.effect = .create p generation content)
    (hinterrupted : ∀ written, ∃ content', r.interrupted written = .create p generation content') :
    (ask r).Meets environment s
      (fun a' s' => a' = a ∧ Adds p generation s s' ∧
        (s.world.shards p generation = none → s'.world.shards p generation = some content))
      fun e s' => Adds p generation s s' ∧ Failed e s' := by
  refine meets_ask h (fun a' ha => ⟨?_, ?_, fun hnone => ?_⟩) (fun e he => ?_)
    (fun fault => ⟨(quiet_after rfl r _ _).adds, failed_after fault _ _⟩)
    fun written fault => ⟨?_, failed_after fault _ _⟩
  · exact Except.ok.inj (ha.symm.trans hanswer)
  · rw [heffect]
    exact adds_after r content _ _
  · rw [after, heffect, World.apply, hnone, Option.isSome_none, if_neg Bool.false_ne_true]
    exact World.setShard_self
  · rw [hanswer] at he
    cases he
  · obtain ⟨content', hcontent'⟩ := hinterrupted written
    rw [hcontent']
    exact adds_after r content' _ _

theorem touches_after_enqueue (r : Request) (payload : Text) (raised faulty : Bool) :
    Touches .rabbitmq generation s (s.after r (.enqueue generation payload) raised faulty) := by
  have hfaulty : s.faulty = true →
      (s.after r (.enqueue generation payload) raised faulty).faulty = true := fun h => by
    rw [after, h, Bool.true_or]
  have hworld : (s.after r (.enqueue generation payload) raised faulty).world = s.world ∨ ∃ shard,
      (s.after r (.enqueue generation payload) raised faulty).world =
        s.world.setShard .rabbitmq generation shard := by
    rw [after, World.apply]
    split
    · exact Or.inl rfl
    · exact Or.inr ⟨_, rfl⟩
  refine ⟨⟨rfl, ?_, List.prefix_append _ _, hfaulty⟩, fun p' generation' hne => ?_⟩
  · rcases hworld with h | ⟨shard, h⟩
    · rw [h]
    · rw [h]
      rfl
  · rcases hworld with h | ⟨shard, h⟩
    · rw [h]
    · rw [h]
      exact World.setShard_of_ne hne

/-- A message that is published to an empty queue. -/
theorem ask_publish (hqueue : s.world.shards .rabbitmq generation = some []) (payload : Text) :
    (ask (.publish generation payload)).Meets environment s
      (fun routed s' => routed = true ∧ Touches .rabbitmq generation s s' ∧
        s'.world.shards .rabbitmq generation = some [payload])
      fun e s' => Touches .rabbitmq generation s s' ∧ Failed e s' := by
  have hanswer : s.world.answer (.publish generation payload) = .ok true := by
    rw [World.answer, hqueue]
    rfl
  refine meets_ask rfl (fun a ha => ⟨?_, touches_after_enqueue _ _ _ _, ?_⟩) (fun e he => ?_)
    (fun fault => ⟨(quiet_after rfl _ _ _).touches, failed_after fault _ _⟩)
    fun written fault => ⟨touches_after_enqueue _ _ _ _, failed_after fault _ _⟩
  · exact Except.ok.inj (ha.symm.trans hanswer)
  · change (s.world.apply (.enqueue generation payload)).shards .rabbitmq generation = some [payload]
    rw [World.apply, hqueue]
    exact World.setShard_self
  · rw [hanswer] at he
    cases he

/-- A reader that returns has found what is there. -/
theorem Found.eq_some {w : World} {observed : Option ByteArray} (h : Found w p generation observed)
    (hholds : w.Holds p generation raw) : observed = some raw := by
  obtain ⟨content, hcontent, hread⟩ := hholds
  rcases h with ⟨-, hnone⟩ | ⟨raw', rfl, content', hcontent', hread'⟩
  · rw [hcontent] at hnone
    cases hnone
  · obtain rfl := Option.some.inj (hcontent.symm.trans hcontent')
    rw [← hread, hread']

/-- What a stager does after its shard is there: it reads the shard back. -/
theorem meets_readback {action : Call (Option ByteArray)} (hreader : IsReader action p generation)
    {s₁ : Exclusive} (hadds : Adds p generation s s₁)
    (hholds : s.world.shards p generation = none → s₁.world.Holds p generation raw) {e : Exc}
    (he : e.isUnowned = false) {created : Bool} (hcreated : created = (s.world.shards p generation).isNone) :
    (do let observed ← action
        require (observed = some raw) e
        return created : Call Bool).Meets environment s₁
      (fun created s' => Adds p generation s s' ∧ s'.world.Holds p generation raw ∧
        created = (s.world.shards p generation).isNone)
      fun e s' => Adds p generation s s' ∧ e.isUnowned = false ∧
        (s'.faulty = true ∨ Foreign s.world p generation raw) := by
  -- A shard that is not what was staged was there before.
  have hforeign : Foreign s₁.world p generation raw → Foreign s.world p generation raw := fun h => by
    by_cases hnone : s.world.shards p generation = none
    · exact absurd h (not_foreign_of_holds (hholds hnone))
    · exact h.congr (hadds.kept hnone).symm
  rw [meets_bind]
  refine (hreader s₁).mono ?_ ?_
  · rintro observed s₂ ⟨hquiet, hfound⟩
    have hadds₂ := hadds.trans hquiet.adds
    rw [meets_bind, meets_require]
    refine ⟨?_, fun hne => ⟨hadds₂, he, Or.inr ?_⟩⟩
    · rintro rfl
      rcases hfound with ⟨heq, -⟩ | ⟨raw', heq, hraw⟩
      · cases heq
      · obtain rfl := Option.some.inj heq
        exact ⟨hadds₂, hraw.congr (by rw [hquiet.shards]), hcreated⟩
    · rcases hfound with ⟨rfl, hnone₁⟩ | ⟨raw', rfl, content, hcontent, hread⟩
      · by_cases hnone : s.world.shards p generation = none
        · obtain ⟨content, hcontent, -⟩ := hholds hnone
          rw [hnone₁] at hcontent
          cases hcontent
        · exact absurd ((hadds.kept hnone).symm.trans hnone₁) hnone
      · exact hforeign ⟨content, hcontent, by rw [hread]; exact hne⟩
  · rintro e' s₂ ⟨hquiet, howned, hcause⟩
    exact ⟨hadds.trans hquiet.adds, howned, hcause.imp_right fun h => hforeign h.foreign⟩

theorem readContent_row {digest storageDigest : Text} (hsize : raw.size ≤ maxCheckpointBytes) :
    readContent .postgres ⟨digest, storageDigest, Py.b64encode raw⟩ = some raw := by
  rw [readContent, decoded_encoded hsize]
  rfl

theorem readContent_value (hsize : raw.size ≤ maxCheckpointBytes) :
    readContent .redis (Py.b64encode raw) = some raw := by
  rw [readContent, decoded_encoded hsize]
  rfl

theorem readContent_messages (hsize : raw.size ≤ maxCheckpointBytes) :
    readContent .rabbitmq [Py.b64encode raw] = some raw := by
  have hlength : (Py.b64encode raw).length ≤ World.truncation := by
    have hencode := Py.length_b64encode raw
    rw [maxCheckpointBytes] at hsize
    rw [World.truncation]
    omega
  change (checkpointDecoded (some ((Py.b64encode raw).take World.truncation))).toOption = some raw
  rw [List.take_of_length_le hlength, decoded_encoded hsize]
  rfl

theorem isStager_pg [Sha256] (hsize : raw.size ≤ maxCheckpointBytes) (generation digest : Text) :
    IsStager (checkpointPgStage raw generation digest) .postgres generation raw := by
  intro s
  rw [checkpointPgStage, meets_bind]
  refine (ask_create rfl rfl rfl fun _ => ⟨_, rfl⟩).mono ?_
    fun e s' h => ⟨h.1, h.2.owned, Or.inl h.2.faulty⟩
  rintro rows s₁ ⟨rfl, hadds, hcreated⟩
  have hrows : (if (s.world.shards .postgres generation).isSome then ([] : Rows)
      else [[some generation]]).isEmpty = (s.world.shards .postgres generation).isSome := by
    cases s.world.shards .postgres generation with
    | none => rfl
    | some row => rfl
  rw [meets_bind, meets_require]
  refine ⟨fun _ => ?_, fun h => absurd ?_ h⟩
  · refine meets_readback (isReader_pg generation) hadds
      (fun hnone => ⟨_, hcreated hnone, readContent_row hsize⟩) rfl ?_
    rw [hrows, Option.not_isSome]
  · split
    · exact Or.inl rfl
    · exact Or.inr rfl

theorem isStager_redis (hsize : raw.size ≤ maxCheckpointBytes) (generation : Text) :
    IsStager (checkpointRedisStage raw generation) .redis generation raw := by
  intro s
  rw [checkpointRedisStage, meets_bind]
  refine (ask_create rfl rfl rfl fun _ => ⟨_, rfl⟩).mono ?_
    fun e s' h => ⟨h.1, h.2.owned, Or.inl h.2.faulty⟩
  rintro reply s₁ ⟨rfl, hadds, hcreated⟩
  rw [meets_bind, meets_require]
  refine ⟨fun _ => ?_, fun h => absurd ?_ h⟩
  · refine meets_readback (isReader_redis generation) hadds
      (fun hnone => ⟨_, hcreated hnone, readContent_value hsize⟩) rfl ?_
    cases s.world.shards .redis generation with
    | none => exact beq_self_eq_true _
    | some value => rfl
  · split
    · exact Or.inr rfl
    · exact Or.inl rfl

theorem isStager_path (hsize : raw.size ≤ maxCheckpointBytes) (d : Directory)
    (hgeneration : isGeneration generation = true) :
    IsStager (checkpointPathStage d raw generation) (.directory d) generation raw := by
  intro s
  rw [checkpointPathStage, meets_bind, meets_require]
  refine ⟨fun _ => ?_, fun h => absurd hgeneration h⟩
  rw [meets_bind]
  refine (ask_quiet rfl rfl rfl fun _ => rfl).mono ?_
    fun e s' h => ⟨h.1.adds, h.2.owned, Or.inl h.2.faulty⟩
  rintro - s₁ ⟨-, hquiet, -⟩
  have hshard : s₁.world.shards (.directory d) generation = s.world.shards (.directory d) generation := by
    rw [hquiet.shards]
  rw [meets_bind, meets_onError]
  refine (ask_create rfl rfl rfl fun _ => ⟨_, rfl⟩).mono ?_ ?_
  · rintro created s₂ ⟨rfl, hadds, hcreated⟩
    refine meets_readback (isReader_path d hgeneration) (hquiet.adds.trans hadds)
      (fun hnone => ⟨_, hcreated (hshard.trans hnone), if_pos hsize⟩) rfl ?_
    rw [hshard, Option.not_isSome]
  · rintro e s₂ ⟨hadds, hfailed⟩
    refine ⟨hquiet.adds.trans hadds, ?_, Or.inl hfailed.faulty⟩
    split
    · rfl
    · exact hfailed.owned

theorem isStager_rabbit (hsize : raw.size ≤ maxCheckpointBytes) (generation : Text) :
    IsStager (checkpointRabbitStage raw generation) .rabbitmq generation raw := by
  intro s
  rw [checkpointRabbitStage, meets_bind]
  refine (isReader_rabbit generation s).mono ?_
    fun e s' h => ⟨h.1.adds, h.2.1, h.2.2.imp_right Spoilt.foreign⟩
  rintro observed s₁ ⟨hquiet, hfound⟩
  rcases hfound with ⟨rfl, hnone⟩ | ⟨existing, rfl, hholds⟩
  · have hnone₁ : s₁.world.shards .rabbitmq generation = none := by rw [hquiet.shards, hnone]
    have hanswer : s₁.world.answer (.putQueue generation) = .ok true := by
      rw [World.answer, hnone₁]
      rfl
    have hadds : ∀ {s₂}, Touches .rabbitmq generation s s₂ → Adds .rabbitmq generation s s₂ :=
      fun htouches => ⟨htouches, fun hne => absurd hnone hne⟩
    rw [meets_bind]
    refine (ask_create hanswer rfl rfl fun _ => ⟨_, rfl⟩).mono ?_
      fun e s₂ h => ⟨hquiet.adds.trans h.1, h.2.owned, Or.inl h.2.faulty⟩
    rintro created s₂ ⟨rfl, hadds₂, hqueue⟩
    have htouches₂ : Touches .rabbitmq generation s s₂ := hquiet.touches.trans hadds₂.toTouches
    rw [if_pos rfl, meets_bind]
    refine (ask_publish (hqueue hnone₁) (Py.b64encode raw)).mono ?_
      fun e s₃ h => ⟨hadds (htouches₂.trans h.1), h.2.owned, Or.inl h.2.faulty⟩
    rintro routed s₃ ⟨rfl, htouches₃, hqueue₃⟩
    have hholds₃ : s₃.world.Holds .rabbitmq generation raw := ⟨_, hqueue₃, readContent_messages hsize⟩
    have htouches : Touches .rabbitmq generation s s₃ := htouches₂.trans htouches₃
    rw [meets_bind, meets_require]
    refine ⟨fun _ => ?_, fun h => absurd rfl h⟩
    rw [meets_bind, meets_onError]
    refine (isReader_rabbit generation s₃).mono ?_ ?_
    · rintro observed s₄ ⟨hquiet₄, hfound⟩
      have hadds₄ := hadds (htouches.trans hquiet₄.touches)
      rw [meets_bind, meets_require]
      refine ⟨fun _ => ⟨hadds₄, hholds₃.congr (by rw [hquiet₄.shards]), by rw [hnone]; rfl⟩,
        fun hne => absurd ?_ hne⟩
      exact hfound.eq_some hholds₃
    · rintro e s₄ ⟨hquiet₄, howned, hcause⟩
      refine ⟨hadds (htouches.trans hquiet₄.touches), ?_, Or.inl ?_⟩
      · rw [Bool.not_true, Bool.and_false, if_neg Bool.false_ne_true]
        exact howned
      · exact hcause.resolve_right fun h => not_foreign_of_holds hholds₃ h.foreign
  · rw [meets_bind, meets_require]
    refine ⟨?_, fun hne => ⟨hquiet.adds, rfl, Or.inr ?_⟩⟩
    · rintro rfl
      refine ⟨hquiet.adds, hholds.congr (by rw [hquiet.shards]), ?_⟩
      obtain ⟨content, hcontent, -⟩ := hholds
      rw [hcontent]
      rfl
    · obtain ⟨content, hcontent, hread⟩ := hholds
      exact ⟨content, hcontent, by rw [hread]; exact fun h => hne (Option.some.inj h)⟩

theorem isStager_selenium (hsize : raw.size ≤ maxCheckpointBytes)
    (hgeneration : isGeneration generation = true) :
    IsStager (checkpointSeleniumStage raw generation) (.directory .session) generation raw := by
  intro s
  rw [checkpointSeleniumStage, meets_bind]
  refine (isReader_selenium hgeneration s).mono ?_
    fun e s' h => ⟨h.1.adds, h.2.1, h.2.2.imp_right Spoilt.foreign⟩
  rintro existing s₁ ⟨hquiet, hfound⟩
  rcases hfound with ⟨rfl, hnone⟩ | ⟨existing, rfl, hholds⟩
  · rw [if_pos rfl, meets_bind]
    refine (meets_roundtrip hsize generation).mono ?_
      fun e s₂ h => ⟨(hquiet.trans h.1).adds, h.2.owned, Or.inl h.2.faulty⟩
    rintro - s₂ ⟨hquiet₂, -⟩
    have hshards : s₂.world.shards = s.world.shards := hquiet₂.shards.trans hquiet.shards
    rw [meets_bind]
    refine (isStager_path hsize .session hgeneration s₂).mono ?_ ?_
    · rintro created s₃ ⟨hadds, hholds, -⟩
      exact meets_readback (isReader_selenium hgeneration) ((hquiet.trans hquiet₂).adds.trans hadds)
        (fun _ => hholds) rfl (by rw [hnone])
    · rintro e s₃ ⟨hadds, howned, hcause⟩
      exact ⟨(hquiet.trans hquiet₂).adds.trans hadds, howned,
        hcause.imp_right fun h => h.congr (by rw [hshards])⟩
  · rw [if_neg (Option.some_ne_none existing)]
    obtain ⟨content, hcontent, -⟩ := hholds
    refine meets_readback (isReader_selenium hgeneration) hquiet.adds (fun hnone => ?_) rfl ?_
    · rw [hcontent] at hnone
      cases hnone
    · rw [hcontent]
      rfl

theorem isStager_checkpointStager [Sha256] (p : Provider) (hsize : raw.size ≤ maxCheckpointBytes)
    (hgeneration : isGeneration generation = true) (digest : Text) :
    IsStager (checkpointStager p raw generation digest) p generation raw := by
  rcases p with _ | _ | _ | _ | _ | _
  · exact isStager_pg hsize generation digest
  · exact isStager_redis hsize generation
  · exact isStager_rabbit hsize generation
  · exact isStager_selenium hsize hgeneration
  · exact isStager_path hsize .files hgeneration
  · exact isStager_path hsize .clock hgeneration

/-! ## Deleters -/

theorem DeletionFailed.mono {trace trace' : List (Request × Bool)} (h : DeletionFailed trace p generation)
    (hgrown : trace <+: trace') : DeletionFailed trace' p generation :=
  h.imp fun _ hr => ⟨hgrown.subset hr.1, hr.2⟩

/-- A shard is deleted, or its deletion has raised and it is as it was. -/
structure Deletes (p : Provider) (generation : Text) (s s' : Exclusive) : Prop
    extends Touches p generation s s' where
  gone : s'.world.shards p generation = none ∨
    s'.world.shards p generation = s.world.shards p generation ∧ DeletionFailed s'.trace p generation

theorem Deletes.quiet (h : Deletes p generation s s') (hquiet : Quiet s' s'') :
    Deletes p generation s s'' := by
  refine ⟨h.toTouches.trans hquiet.touches, ?_⟩
  rw [hquiet.shards]
  exact h.gone.imp_right fun hfailed => ⟨hfailed.1, hfailed.2.mono hquiet.trace⟩

/-- Code that deletes the shard of a generation at a provider. -/
def IsDeleter (action : Call Unit) (p : Provider) (generation : Text) : Prop :=
  ∀ s, action.Meets environment s (fun _ => Deletes p generation s) fun _ => Deletes p generation s

theorem deletes_after {r : Request} (heffect : r.effect = .erase p generation) {raised : Bool}
    (hraised : s.world.protects p generation = true → raised = true) (faulty : Bool) :
    Deletes p generation s (s.after r (.erase p generation) raised faulty) := by
  have hfaulty : s.faulty = true → (s.after r (.erase p generation) raised faulty).faulty = true :=
    fun h => by rw [after, h, Bool.true_or]
  have hworld : (s.after r (.erase p generation) raised faulty).world =
      if s.world.protects p generation then s.world else s.world.setShard p generation none := rfl
  refine ⟨⟨⟨rfl, ?_, List.prefix_append _ _, hfaulty⟩, fun p' generation' hne => ?_⟩, ?_⟩
  · rw [hworld]
    split
    · rfl
    · rfl
  · rw [hworld]
    split
    · rfl
    · exact World.setShard_of_ne hne
  · rw [hworld]
    split
    · next hprotects =>
        obtain rfl := hraised hprotects
        exact Or.inr ⟨rfl, r, List.mem_append_right _ List.mem_cons_self, heffect⟩
    · exact Or.inl World.setShard_self

/-- A request that deletes a shard. -/
theorem ask_erase {r : Request} (h : Request.isProvider r = true)
    (heffect : r.effect = .erase p generation)
    (hinterrupted : ∀ written, r.interrupted written = .erase p generation)
    (hrefused : s.world.protects p generation = true → ∃ e, s.world.answer r = .error e) :
    (ask r).Meets environment s (fun _ => Deletes p generation s) fun _ => Deletes p generation s := by
  refine meets_ask h (fun a ha => ?_) (fun e _ => ?_) (fun fault => ?_) fun written fault => ?_
  · rw [heffect]
    refine deletes_after heffect (fun hprotects => ?_) _
    obtain ⟨e, he⟩ := hrefused hprotects
    rw [ha] at he
    cases he
  · rw [heffect]
    exact deletes_after heffect (fun _ => rfl) _
  · exact ⟨(quiet_after rfl r _ _).touches, Or.inr ⟨rfl, r, List.mem_append_right _ List.mem_cons_self,
      heffect⟩⟩
  · rw [hinterrupted written]
    exact deletes_after heffect (fun _ => rfl) _

/-- A request that deletes a shard and is not refused. -/
theorem ask_erase_of_ne {r : Request} (h : Request.isProvider r = true)
    (heffect : r.effect = .erase p generation)
    (hinterrupted : ∀ written, r.interrupted written = .erase p generation) (hne : p ≠ .postgres) :
    (ask r).Meets environment s (fun _ => Deletes p generation s) fun _ => Deletes p generation s :=
  ask_erase h heffect hinterrupted fun hprotects => absurd (World.eq_of_protects hprotects) hne

theorem isDeleter_path (d : Directory) (hgeneration : isGeneration generation = true) :
    IsDeleter (checkpointPathDelete d generation) (.directory d) generation := by
  intro s
  rw [checkpointPathDelete, meets_bind, meets_require]
  refine ⟨fun _ => ?_, fun h => absurd hgeneration h⟩
  rw [meets_bind]
  exact (ask_erase_of_ne (p := .directory d) rfl rfl (fun _ => rfl) nofun).mono (fun _ _ h => h) fun _ _ h => h

theorem isDeleter_checkpointDeleter (p : Provider) (hgeneration : isGeneration generation = true) :
    IsDeleter (checkpointDeleter p generation) p generation := by
  intro s
  rcases p with _ | _ | _ | _ | _ | _
  · rw [checkpointDeleter, checkpointPgDelete, meets_bind]
    refine (ask_erase rfl rfl (fun _ => rfl) fun hprotects => ?_).mono (fun _ _ h => h) fun _ _ h => h
    exact ⟨_, if_pos hprotects⟩
  · rw [checkpointDeleter, checkpointRedisDelete, meets_bind]
    refine (ask_erase_of_ne (p := .redis) rfl rfl (fun _ => rfl) nofun).mono (fun reply s' h => ?_) fun _ _ h => h
    rw [meets_require]
    exact ⟨fun _ => h, fun _ => h⟩
  · rw [checkpointDeleter, checkpointRabbitDelete, meets_bind, meets_onError]
    exact (ask_erase_of_ne (p := .rabbitmq) rfl rfl (fun _ => rfl) nofun).mono (fun _ _ h => h) fun _ _ h => h
  · rw [checkpointDeleter, checkpointSeleniumDelete, meets_bind]
    refine (isDeleter_path .session hgeneration s).mono (fun _ s₁ h => ?_) fun _ _ h => h
    refine (meets_browserSession (P := fun _ => True) fun session s' => ?_).mono
      (fun _ _ hquiet => h.quiet hquiet.1) fun _ _ hquiet => h.quiet hquiet.1
    exact (ask_quiet rfl rfl rfl fun _ => rfl).mono (fun _ _ hquiet => ⟨hquiet.2.1, trivial⟩)
      fun _ _ hquiet => hquiet
  · exact isDeleter_path .files hgeneration s
  · exact isDeleter_path .clock hgeneration s

end Exclusive

end StateWeaver.Bridge

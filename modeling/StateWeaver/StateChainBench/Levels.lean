import StateWeaver.StateChainBench.Executing

/-!
# The tiered solver and the oracle

Every level of the tiered solver keeps what it observed played and paid, so whatever it submits agrees with
the oracle.
-/

namespace StateWeaver.StateChainBench

open Contracts

/-! ## The configuration -/

/-- The configuration as JSON. -/
def StateWeaverTieredSystem.configJson (system : StateWeaverTieredSystem) : PlainJson :=
  .obj
    [("solver", .scalar (.str "stateweaver_tiered")), ("seed", .scalar (.int system.seed)),
      ("beam_width", .scalar (.int system.beamWidth)),
      ("ablation", .obj
        [("disabled", .arr (system.ablation.disabled.map fun feature => .scalar (.str feature.value)))])]

theorem jsonReadyItems_features (features : List AblationFeature) :
    jsonReadyItems (features.map fun feature => .enum feature.value) =
      jsonReadyItems (Value.ofItems (features.map fun feature => .scalar (.str feature.value))) := by
  induction features with
  | nil => rfl
  | cons feature features ih =>
      rw [List.map_cons, List.map_cons, Value.ofItems, jsonReadyItems, jsonReadyItems, ih]
      rfl

variable [Sha256]

theorem systemConfigDigest_eq (system : StateWeaverTieredSystem) :
    system.systemConfigDigest = (digestOf (.ofJson system.configJson)).mapError .valueError := by
  have hready : jsonReady (.mapping
      [(some "solver", .scalar (.str "stateweaver_tiered")), (some "seed", .scalar (.int system.seed)),
        (some "beam_width", .scalar (.int system.beamWidth)),
        (some "ablation", .mapping
          [(some "disabled", .list (system.ablation.disabled.map fun feature => .enum feature.value))])]) =
      jsonReady (.ofJson system.configJson) := by
    simp only [StateWeaverTieredSystem.configJson, Value.ofJson, Value.ofEntries, jsonReady, jsonReadyEntries,
      jsonReadyItems_features]
  rw [StateWeaverTieredSystem.systemConfigDigest, digestOf, digestOf, canonicalJsonBytes, canonicalJsonBytes,
    hready]

/-- The configuration has a digest exactly if the seed is written. -/
theorem exists_systemConfigDigest {system : StateWeaverTieredSystem} :
    (∃ digest, system.systemConfigDigest = .ok digest) ↔ SeedIsWritable system := by
  rw [systemConfigDigest_eq]
  constructor
  · rintro ⟨digest, hdigest⟩
    cases hjson : digestOf (.ofJson system.configJson) with
    | error e =>
        rw [hjson] at hdigest
        cases hdigest
    | ok digest' =>
        obtain ⟨bytes, hbytes, -⟩ := digestOf_eq_ok.mp hjson
        have hscalar := (canonicalJsonBytes_ofJson.mp hbytes).2.1 (.int system.seed)
          (Json.mem_entriesScalars.mpr ⟨("seed", .scalar (.int system.seed)),
            List.mem_cons_of_mem _ List.mem_cons_self, List.mem_singleton.mpr rfl⟩)
        by_contra hlong
        rw [SeedIsWritable] at hlong
        rw [scalarError, Int.natAbs_natCast, if_neg hlong] at hscalar
        cases hscalar
  · intro hseed
    have hwidth : system.beamWidth < 1000000000 := lt_of_le_of_lt system.widthInRange.2 (by decide)
    let config := Writable.mapping
      [("solver", .text "stateweaver_tiered"), ("seed", .integer system.seed hseed),
        ("beam_width", .number system.beamWidth hwidth),
        ("ablation", .mapping
          [("disabled", .texts (system.ablation.disabled.map AblationFeature.value))] (by simp))] (by simp)
    have hjson : config.json = system.configJson := by
      simp only [config, StateWeaverTieredSystem.configJson, Writable.texts, Writable.json_mapping,
        Writable.json_list, Writable.json_text, Writable.json_number, List.map_cons,
        List.map_nil, List.map_map]
      rfl
    rw [← hjson, config.digestOf_eq]
    exact ⟨_, rfl⟩

/-! ## One level -/

/-- What holds when the loop over the levels ends. -/
structure Observed (system : StateWeaverTieredSystem) (challenge : PublicChallenge) (budget : BudgetLimits)
    (depth : Nat) (p : Progress) (entries : List Entry) : Prop where
  books : Books challenge budget p.ledger entries
  orderly : Orderly challenge (!system.ablation.has .worldTiers) entries
  nonempty : p.observedPaths ≠ []
  walked : ∀ path ∈ p.observedPaths, Walked challenge entries path ∧ path.actionTokens.length ≤ depth
  fingerprints : p.searchFingerprints.Nodup
  refused : ∀ x, p.exhaustion = some x →
    Refused challenge budget p.ledger (!system.ablation.has .worldTiers) x

/-- What holds when a level starts. -/
structure Ready (system : StateWeaverTieredSystem) (challenge : PublicChallenge) (budget : BudgetLimits)
    (depth : Nat) (p : Progress) (entries : List Entry) : Prop
    extends Observed system challenge budget depth p entries where
  shallow : ∀ entry ∈ entries, entry.operation.chain.length ≤ depth
  frontier : ∀ path ∈ p.frontier, Walked challenge entries path ∧ path.actionTokens.length = depth
  distinct : (p.frontier.map Path.actionTokens).Nodup
  searched : Searched challenge budget p.searchLedger
  goalOpen : ∀ path ∈ p.observedPaths, goalIsReached challenge path.state = false

/-- What the loop found: a path to the goal, or none as yet. -/
def Found (challenge : PublicChallenge) (p : Progress) : Option Path → Prop
  | some best => best ∈ p.observedPaths ∧ goalIsReached challenge best.state = true
  | none => ∀ path ∈ p.observedPaths, goalIsReached challenge path.state = false

/-- How a level ends. -/
structure Levelled (system : StateWeaverTieredSystem) (challenge : PublicChallenge) (budget : BudgetLimits)
    (depth : Nat) (result : Progress × Option Path × Bool) : Prop where
  observed : ∃ entries, Observed system challenge budget (depth + 1) result.1 entries ∧
    (result.2.2 = true → Ready system challenge budget (depth + 1) result.1 entries)
  found : Found challenge result.1 result.2.1

variable {system : StateWeaverTieredSystem} {challenge : PublicChallenge} {budget : BudgetLimits}
  {depth : Nat} {p : Progress} {entries : List Entry}

/-- A refused plan is a refused attempt. -/
theorem refused_of_plan {ledger : BudgetLedger} {action : PublicAction} {inWorld : Bool}
    (haction : action ∈ challenge.actions) (h : ¬Within budget (ledger.usage + planCost)) :
    Refused challenge budget ledger inWorld (.ofPlan ledger.usage action) := ⟨⟨action, haction, .inl rfl⟩, h⟩

omit [Sha256] in
/-- Planning the entries of a level one after another. -/
theorem Orderly.plans {inWorld : Bool} (h : Orderly challenge inWorld entries) {expansions : List Expansion}
    (hexpansions : ∀ e ∈ expansions, e.action ∈ challenge.actions) :
    Orderly challenge inWorld (entries ++ expansions.map Expansion.planEntry) := by
  induction expansions generalizing entries with
  | nil =>
      rw [List.map_nil, List.append_nil]
      exact h
  | cons e expansions ih =>
      obtain ⟨he, hrest⟩ := List.forall_mem_cons.mp hexpansions
      rw [List.map_cons, List.append_cons]
      exact ih (h.plan rfl he) hrest

/-- When the expansions of a level are planned, their execution can start. -/
theorem Ready.executing (h : Ready system challenge budget depth p entries) {ledger : BudgetLedger}
    {expansions : List Expansion} (hplans : Plans system challenge budget entries depth ledger expansions)
    {searchLedger : Search.BudgetLedger} {searchFingerprints : List Sha256Digest}
    {exhaustion : Option BudgetExhaustion} :
    Executing system challenge budget entries depth expansions []
      { p with ledger, searchLedger, searchFingerprints, exhaustion, frontier := [] }
      (entries ++ expansions.map Expansion.planEntry) := by
  refine ⟨hplans.books, h.orderly.plans fun e he => (hplans.expanded e he).action, ⟨_, rfl⟩,
    fun e he => List.mem_append_right _ (List.mem_map_of_mem he), fun entry hentry => ?_, fun entry hentry => ?_,
    nofun, List.nil_sublist _⟩
  · rcases List.mem_append.mp hentry with hentry | hentry
    · exact .inr (.inl (h.shallow entry hentry))
    · obtain ⟨e, -, rfl⟩ := List.mem_map.mp hentry
      exact .inl rfl
  · rcases List.mem_append.mp hentry with hentry | hentry
    · exact Nat.le_succ_of_le (h.shallow entry hentry)
    · obtain ⟨e, he, rfl⟩ := List.mem_map.mp hentry
      exact (hplans.expanded e he).length.le

/-- The paths of a level that was executed. -/
theorem Executing.distinct {old : List Entry} {expansions done : List Expansion}
    (h : Executing system challenge budget old depth expansions done p entries) :
    (p.frontier.map Path.actionTokens).Nodup := by
  have hkeys := h.books.keys_nodup.sublist h.keys
  refine List.Nodup.of_map (fun chain => (Operation.execute chain).key challenge) ?_
  rw [List.map_map]
  exact hkeys

variable [SearchDigests]

theorem ends_level (hseed : SeedIsWritable system) (h : Ready system challenge budget depth p entries) :
    Imp.Ends (Levelled system challenge budget depth) (IsCollision challenge budget)
      (level system challenge p) := by
  have hplans : Plans system challenge budget entries depth p.ledger [] := by
    refine ⟨?_, List.forall_mem_nil _⟩
    rw [List.map_nil, List.append_nil]
    exact h.books
  have hexpand := ends_expandPaths p.seen h.shallow h.frontier h.distinct hplans fun _ _ _ => List.not_mem_nil
  unfold level
  refine hexpand.bind fun ⟨ledger, expansions, exhaustion⟩ hresult => ?_
  have hbooks := hresult.plans.books
  have hexpanded := hresult.plans.expanded
  have hrefused : ∀ x, exhaustion = some x →
      Refused challenge budget ledger (!system.ablation.has .worldTiers) x ∧
        ¬Within budget (ledger.usage + planCost) := by
    intro x hx
    obtain ⟨action, haction, rfl, hexceeded⟩ := hresult.refused x hx
    exact ⟨refused_of_plan haction hexceeded, hexceeded⟩
  by_cases hempty : expansions = []
  · simp only [hempty, if_true]
    refine Imp.ends_ok ⟨⟨entries, ⟨?_, h.orderly, h.nonempty, fun path hpath => ?_, h.fingerprints,
      fun x hx => (hrefused x hx).1⟩, nofun⟩, h.goalOpen⟩
    · simp only [hempty, List.map_nil, List.append_nil] at hbooks
      exact hbooks
    · exact ⟨(h.walked path hpath).1, Nat.le_succ_of_le (h.walked path hpath).2⟩
  · simp only [hempty, if_false]
    have hpromote := ends_promote hseed hempty hexpanded hresult.plans.nodup h.searched h.fingerprints
    refine hpromote.bind fun ⟨ids, searchLedger, searchFingerprints⟩ hpromoted => ?_
    obtain ⟨chosen, hchosen, hnodup, rfl⟩ := hpromoted.chosen
    have hexecuting : Executing system challenge budget entries depth expansions []
        { p with ledger, searchLedger, searchFingerprints, exhaustion, frontier := [] }
        (entries ++ expansions.map Expansion.planEntry) :=
      h.executing hresult.plans
    have hdistinct : (([] ++ chosen).map fun e : Expansion => e.path.actionTokens).Nodup := hnodup
    have hexecute := ends_executePromoted hexpanded hchosen hdistinct hexecuting hrefused
    refine hexecute.bind fun p' hp' => ?_
    obtain ⟨done, entries', hexecuting⟩ := hp'.executing
    obtain ⟨new, hfrontier, hobserved⟩ := hp'.observed
    obtain ⟨more, rfl⟩ := hexecuting.extended
    rw [List.nil_append] at hfrontier
    subst hfrontier
    have hwalked : ∀ path ∈ p'.observedPaths, Walked challenge (entries ++ more) path ∧
        path.actionTokens.length ≤ depth + 1 := by
      intro path hpath
      rw [hobserved, List.mem_append] at hpath
      rcases hpath with hpath | hpath
      · exact ⟨(h.walked path hpath).1.append _, Nat.le_succ_of_le (h.walked path hpath).2⟩
      · exact ⟨(hexecuting.frontier path hpath).1, (hexecuting.frontier path hpath).2.le⟩
    have hdone : Observed system challenge budget (depth + 1) p' (entries ++ more) := by
      refine ⟨hexecuting.books, hexecuting.orderly, ?_, hwalked, hp'.searchFingerprints ▸ hpromoted.fingerprints,
        hp'.refused⟩
      rw [hobserved]
      exact List.append_ne_nil_of_left_ne_nil h.nonempty _
    cases hbest : (p'.frontier.filter fun path => goalIsReached challenge path.state).argmin pathOrder with
    | some best =>
        have hmem := List.mem_filter.mp (List.argmin_mem hbest)
        refine Imp.ends_ok ⟨⟨_, hdone, nofun⟩, ?_, hmem.2⟩
        rw [hobserved]
        exact List.mem_append_right _ hmem.1
    | none =>
        have hopen : ∀ path ∈ p'.observedPaths, goalIsReached challenge path.state = false := by
          intro path hpath
          rw [hobserved, List.mem_append] at hpath
          rcases hpath with hpath | hpath
          · exact h.goalOpen path hpath
          · have hnil := List.filter_eq_nil_iff.mp (List.argmin_eq_none.mp hbest) path hpath
            exact Bool.not_eq_true _ |>.mp hnil
        refine Imp.ends_ok ⟨⟨_, hdone, fun _ => ?_⟩, hopen⟩
        exact ⟨hdone, hexecuting.shallow, hexecuting.frontier, hexecuting.distinct,
          hp'.searchLedger ▸ hpromoted.searched, hopen⟩

/-! ## All levels -/

/-- The loop over the levels. -/
theorem ends_levels (hseed : SeedIsWritable system) (count : Nat)
    (h : Ready system challenge budget depth p entries) :
    Imp.Ends (fun result => (∃ entries, Observed system challenge budget (depth + count) result.1 entries) ∧
        Found challenge result.1 result.2)
      (IsCollision challenge budget) (levels system challenge count p) := by
  induction count generalizing depth p entries with
  | zero => exact Imp.ends_ok ⟨⟨entries, h.toObserved⟩, h.goalOpen⟩
  | succ count ih =>
      unfold levels
      refine (ends_level hseed h).bind fun ⟨p', best, more⟩ hlevel => ?_
      obtain ⟨entries', hobserved, hready⟩ := hlevel.observed
      cases more with
      | false =>
          refine Imp.ends_ok ⟨⟨entries', ?_⟩, hlevel.found⟩
          exact ⟨hobserved.books, hobserved.orderly, hobserved.nonempty,
            fun path hpath => ⟨(hobserved.walked path hpath).1, (hobserved.walked path hpath).2.trans (by omega)⟩,
            hobserved.fingerprints, hobserved.refused⟩
      | true =>
          refine (ih (hready rfl)).mono (fun result hresult => ?_) fun _ he => he
          rw [Nat.add_right_comm] at hresult
          exact hresult

/-! ## Runs -/

omit [SearchDigests] in
theorem ready_initial (system : StateWeaverTieredSystem) (challenge : PublicChallenge) (budget : BudgetLimits) :
    Ready system challenge budget 0
      { ledger := .empty budget
        searchLedger := searchLedgerOf budget
        frontier := [⟨sortedItems challenge.initialMapping, []⟩]
        observedPaths := [⟨sortedItems challenge.initialMapping, []⟩]
        seen := [stateFingerprint (sortedItems challenge.initialMapping)]
        searchFingerprints := []
        exhaustion := none } [] := by
  have hwalked : Walked challenge [] ⟨sortedItems challenge.initialMapping, []⟩ :=
    ⟨⟨⟨List.nodup_nil, List.forall_mem_nil _⟩, challenge.initialMapping, rfl, sameState_sortedItems _⟩,
      List.forall_mem_nil _⟩
  refine ⟨⟨books_empty, .nil, List.cons_ne_nil _ _, List.forall_mem_singleton.mpr ⟨hwalked, le_refl 0⟩,
    List.nodup_nil, nofun⟩, nofun, List.forall_mem_singleton.mpr ⟨hwalked, rfl⟩, List.nodup_singleton _,
    ⟨rfl, nofun⟩, List.forall_mem_singleton.mpr ?_⟩
  rw [(sameState_sortedItems _).goalIsReached, goalIsReached_initialMapping]

omit [SearchDigests] in
/-- A run that submits an observed path is created and agrees with the oracle. -/
theorem exists_tieredRun (hseed : SeedIsWritable system) {limit : Nat} (hlimit : limit ≤ challenge.maxChainLength)
    (h : Observed system challenge budget limit p entries) {path : Path} (hpath : path ∈ p.observedPaths)
    {stop : StopReason} {x : Option BudgetExhaustion}
    (hgoal : stop = .goalReached ↔ goalIsReached challenge path.state = true)
    (hstop : stop = .budgetExhausted ↔ x.isSome = true) :
    ∃ run, tieredRun system challenge p.ledger path stop p.searchFingerprints x = .ok run ∧
      Agrees challenge budget run := by
  obtain ⟨hwalked, hlength⟩ := h.walked path hpath
  obtain ⟨state, hplay, hsame⟩ := hwalked.state
  rw [hsame.goalIsReached] at hgoal
  obtain ⟨digest, hdigest⟩ := exists_systemConfigDigest.mpr hseed
  have hnodup := hwalked.chain.nodup
  obtain ⟨systemId, hrun⟩ : ∃ systemId, tieredRun system challenge p.ledger path stop p.searchFingerprints x =
      SystemRun.create systemId digest ⟨challenge.challengeId, path.actionTokens, hnodup⟩ p.ledger
        (!system.ablation.has .realityAnchor) stop x p.searchFingerprints := by
    rw [tieredRun, hdigest, submission_create hnodup]
    exact ⟨_, rfl⟩
  refine ⟨_, hrun.trans (systemRun_create h.fingerprints hstop), ?_⟩
  exact (agrees_iff h.books rfl hplay hwalked.executed hgoal).mpr (hlength.trans hlimit)

omit [SearchDigests] in
/-- Why a run stops that did not reach the goal. -/
theorem exists_tieredRun_of_open (hseed : SeedIsWritable system) {limit : Nat}
    (hlimit : limit ≤ challenge.maxChainLength) (h : Observed system challenge budget limit p entries)
    {path : Path} (hpath : path ∈ p.observedPaths) (hopen : goalIsReached challenge path.state = false)
    (depthLimit : Nat) :
    let stop : StopReason :=
      if system.ablation.has .chainCompiler then .chainCompilerDisabled
      else if p.exhaustion.isSome then .budgetExhausted
      else if depthLimit ≤ path.actionTokens.length then .depthLimit
      else .noProgress
    ∃ run, tieredRun system challenge p.ledger path stop p.searchFingerprints
        (if stop = .budgetExhausted then p.exhaustion else none) = .ok run ∧ Agrees challenge budget run := by
  intro stop
  have hgoal : stop ≠ .goalReached := by
    dsimp only [stop]
    split_ifs <;> nofun
  refine exists_tieredRun hseed hlimit h hpath (iff_of_false hgoal (by rw [hopen]; nofun)) ?_
  by_cases hstop : stop = .budgetExhausted
  · rw [if_pos hstop]
    refine iff_of_true hstop ?_
    dsimp only [stop] at hstop
    split_ifs at hstop with hcompiler hsome
    exact hsome
  · rw [if_neg hstop]
    exact iff_of_false hstop nofun

/-- The run of the tiered solver agrees with the oracle, unless it meets a collision. -/
theorem ends_solve (hseed : SeedIsWritable system) (challenge : PublicChallenge) (budget : BudgetLimits) :
    Imp.Ends (Agrees challenge budget) (IsCollision challenge budget) (system.solve challenge budget) := by
  have hdepth : 0 + (if system.ablation.has .chainCompiler then 1 else challenge.maxChainLength) ≤
      challenge.maxChainLength := by
    rw [Nat.zero_add]
    split_ifs
    · exact le_trans (by decide) challenge.lengthInRange.1
    · exact le_refl _
  unfold StateWeaverTieredSystem.solve
  refine (ends_levels hseed _ (ready_initial system challenge budget)).bind fun ⟨p, reached⟩ hresult => ?_
  obtain ⟨⟨entries, hobserved⟩, hfound⟩ := hresult
  cases reached with
  | some best =>
      obtain ⟨run, hrun, hagrees⟩ := exists_tieredRun hseed hdepth hobserved hfound.1
        (x := none) (iff_of_true rfl hfound.2 : StopReason.goalReached = .goalReached ↔ _) (iff_of_false nofun nofun)
      exact Imp.ends_of_eq_ok hrun hagrees
  | none =>
      dsimp only
      split
      · next hnone => exact absurd (List.argmin_eq_none.mp hnone) hobserved.nonempty
      · next best hbest =>
          have hmem := List.argmin_mem hbest
          obtain ⟨run, hrun, hagrees⟩ := exists_tieredRun_of_open hseed hdepth hobserved hmem (hfound best hmem) _
          exact Imp.ends_of_eq_ok hrun hagrees

/-- No run is returned with a seed that is not written. -/
theorem seedIsWritable_of_solve {run : SystemRun} (h : system.solve challenge budget = .ok run) :
    SeedIsWritable system := by
  unfold StateWeaverTieredSystem.solve at h
  obtain ⟨⟨p, reached⟩, -, h⟩ := Imp.except_bind_eq_ok.mp h
  have hdigest : ∀ {path : Path} {stop : StopReason} {x : Option BudgetExhaustion},
      tieredRun system challenge p.ledger path stop p.searchFingerprints x = .ok run → SeedIsWritable system := by
    intro path stop x hrun
    obtain ⟨digest, hdigest, -⟩ := Imp.except_bind_eq_ok.mp hrun
    exact exists_systemConfigDigest.mp ⟨digest, hdigest⟩
  cases reached with
  | some best => exact hdigest h
  | none =>
      dsimp only at h
      split at h
      · cases h
      · exact hdigest h

/-- The tiered solver returns a run, which agrees with the oracle, if its seed is written and it does not
meet a collision. -/
theorem ends_tiered (system : StateWeaverTieredSystem) (challenge : PublicChallenge) (budget : BudgetLimits) :
    Imp.Ends (fun run => SeedIsWritable system ∧ Agrees challenge budget run)
      (fun e => SeedIsWritable system → IsCollision challenge budget e) (system.solve challenge budget) := by
  refine ⟨fun run hrun => ?_, fun e he hseed => (ends_solve hseed challenge budget).raises e he⟩
  have hseed := seedIsWritable_of_solve hrun
  exact ⟨hseed, (ends_solve hseed challenge budget).returns run hrun⟩

end StateWeaver.StateChainBench

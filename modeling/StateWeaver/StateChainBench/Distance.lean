import StateWeaver.StateChainBench.SolverOracle
import StateWeaver.Lib.Frontier

/-!
# The distance to the goal

The tiered solver ranks a state by the least number of unused actions that lead from it to the goal. It finds
this number by a breadth-first search that keeps the fingerprints of the states, so two states are the same
for it exactly if SHA-256 tells them apart.
-/

namespace StateWeaver.StateChainBench

open Contracts Frontier

/-! ## Chains of unused actions -/

/-- Whether distinct unused actions can be fired one after another from a state, and what they lead to. -/
def Fires (challenge : PublicChallenge) (used : Finset ActionToken) (chain : List ActionToken)
    (state state' : State) : Prop :=
  chain.Nodup ∧ (∀ token ∈ chain, token ∉ used) ∧ play challenge chain state = some state'

/-- The numbers of actions, within the bound of the challenge, that lead from a state to the goal. -/
def distances (challenge : PublicChallenge) (state : State) (used : Finset ActionToken) : Set Nat :=
  {n | n ≤ challenge.maxChainLength ∧ ∃ chain state', Fires challenge used chain state state' ∧
    goalIsReached challenge state' = true ∧ chain.length = n}

variable {challenge : PublicChallenge} {used : Finset ActionToken} {chain : List ActionToken}
  {action : PublicAction} {token : ActionToken} {s t state state' : State}

theorem action_of_catalog (h : challenge.catalog.get? token = some action) :
    action ∈ challenge.actions ∧ action.token = token := by
  obtain ⟨a, ha, heq⟩ := List.mem_map.mp (Dict.mem_entries.mpr h)
  obtain ⟨rfl, rfl⟩ := Prod.mk.inj heq
  exact ⟨ha, rfl⟩

/-- A chain of unused actions starts with one that can be fired, and goes on with others. -/
theorem fires_cons : Fires challenge used (token :: chain) state state' ↔
    ∃ action ∈ challenge.actions, action.token = token ∧ token ∉ used ∧
      actionIsApplicable action state = true ∧
      Fires challenge (insert token used) chain (applyEffects action state) state' := by
  constructor
  · rintro ⟨hnodup, hfresh, hplay⟩
    obtain ⟨hnew, hnodup⟩ := List.nodup_cons.mp hnodup
    obtain ⟨hunused, hfresh⟩ := List.forall_mem_cons.mp hfresh
    rw [play] at hplay
    cases haction : challenge.catalog.get? token with
    | none =>
        rw [haction] at hplay
        cases hplay
    | some action =>
        rw [haction] at hplay
        obtain ⟨hmem, htoken⟩ := action_of_catalog haction
        obtain ⟨happlicable, hplay⟩ := Option.ite_none_right_eq_some.mp hplay
        refine ⟨action, hmem, htoken, hunused, happlicable, hnodup, fun other hother hused => ?_, hplay⟩
        rcases Finset.mem_insert.mp hused with rfl | hused
        · exact hnew hother
        · exact hfresh other hother hused
  · rintro ⟨action, hmem, rfl, hunused, happlicable, hnodup, hfresh, hplay⟩
    refine ⟨List.nodup_cons.mpr ⟨fun h => hfresh _ h (Finset.mem_insert_self _ _), hnodup⟩,
      List.forall_mem_cons.mpr ⟨hunused, fun other hother hused =>
        hfresh other hother (Finset.mem_insert_of_mem hused)⟩, ?_⟩
    rw [play, get?_catalog hmem]
    exact (if_pos happlicable).trans hplay

/-! ## The states of the search -/

/-- A state is one step from another if an unused action leads from the one to the other. -/
def space (challenge : PublicChallenge) : Space Pending where
  step p q := ∃ action ∈ challenge.actions, action.token ∉ p.consumed ∧
    actionIsApplicable action p.state = true ∧
    q = ⟨applyEffects action p.state, insert action.token p.consumed, p.depth + 1⟩
  goal p := goalIsReached challenge p.state = true
  grade := Pending.depth
  alike p q := SameState p.state q.state ∧ p.consumed = q.consumed ∧ p.depth = q.depth
  grade_step := by
    rintro p q ⟨action, -, -, -, rfl⟩
    rfl
  grade_alike h := h.2.2
  goal_alike h hgoal := (h.1.goalIsReached challenge).symm.trans hgoal
  step_alike := by
    rintro p q _ ⟨hstate, hconsumed, hdepth⟩ ⟨action, hmem, hfresh, happlicable, rfl⟩
    rw [hconsumed] at hfresh
    rw [hstate.isApplicable] at happlicable
    exact ⟨_, ⟨action, hmem, hfresh, happlicable, rfl⟩, hstate.applyEffects action,
      congrArg (insert action.token) hconsumed, congrArg Nat.succ hdepth⟩

theorem away_iff {p : Pending} {n : Nat} : (space challenge).Away p n ↔
    ∃ chain state', Fires challenge p.consumed chain p.state state' ∧
      goalIsReached challenge state' = true ∧ chain.length = n := by
  constructor
  · intro h
    induction h with
    | @here p hgoal =>
        exact ⟨[], p.state, ⟨List.nodup_nil, List.forall_mem_nil _, rfl⟩, hgoal, rfl⟩
    | there hstep _ ih =>
        obtain ⟨action, hmem, hfresh, happlicable, rfl⟩ := hstep
        obtain ⟨chain, state', hfires, hgoal, rfl⟩ := ih
        exact ⟨action.token :: chain, state',
          fires_cons.mpr ⟨action, hmem, rfl, hfresh, happlicable, hfires⟩, hgoal, rfl⟩
  · rintro ⟨chain, state', hfires, hgoal, rfl⟩
    induction chain generalizing p with
    | nil =>
        obtain rfl := Option.some.inj hfires.2.2
        exact .here hgoal
    | cons token chain ih =>
        obtain ⟨action, hmem, rfl, hfresh, happlicable, hfires⟩ := fires_cons.mp hfires
        exact .there ⟨action, hmem, hfresh, happlicable, rfl⟩ (ih hfires)

/-- The search starts with the distances. -/
theorem arrivals_start (challenge : PublicChallenge) (state : State) (used : Finset ActionToken) :
    {m ∈ (space challenge).arrivals [⟨state, used, 0⟩] | m ≤ challenge.maxChainLength} =
      distances challenge state used := by
  ext n
  refine and_comm.trans (and_congr_right fun _ => ?_)
  constructor
  · rintro ⟨p, hp, n, haway, rfl⟩
    obtain rfl := List.mem_singleton.mp hp
    rw [show (space challenge).grade ⟨state, used, 0⟩ = 0 from rfl, Nat.zero_add]
    exact away_iff.mp haway
  · intro h
    exact ⟨_, List.mem_singleton_self _, n, away_iff.mpr h, (Nat.zero_add n).symm⟩

/-! ## Fingerprints -/

variable [Sha256]

/-- What the fingerprint of a state is taken of. -/
def fingerprintContent (state : State) : Writable :=
  Writable.list ((sortedItems state).entries.map fun item => .list [.text item.1.val, .flag item.2])

omit [Sha256] in
theorem sameState_of_content
    (h : (fingerprintContent s).json.Same (fingerprintContent t).json) : SameState s t := by
  have hsort := Json.sort_eq_of_same h (fingerprintContent s).distinct
  have hcontent : ∀ u : State, (fingerprintContent u).json.sort =
      .arr ((sortedItems u).entries.map fun item =>
        .arr [.scalar (.str item.1.val), .scalar (.bool item.2)]) := by
    intro u
    rw [fingerprintContent, Writable.list, Json.sort, Json.sortItems_eq, List.map_map, List.map_map]
    rfl
  rw [hcontent, hcontent, Json.arr.injEq] at hsort
  have hitems : Function.Injective fun item : StateKey × Bool =>
      (Json.arr [.scalar (.str item.1.val), .scalar (.bool item.2)] : PlainJson) := by
    rintro ⟨key, value⟩ ⟨key', value'⟩ heq
    injection heq with heq
    injection heq with hkey heq
    injection heq with hvalue
    injection hkey with hkey
    injection hvalue with hvalue
    exact Prod.ext (Constrained.val_injective (Py.Scalar.str.inj hkey)) (Py.Scalar.bool.inj hvalue)
  have hentries := hitems.list_map hsort
  intro key
  rw [← sameState_sortedItems s key, ← sameState_sortedItems t key, Dict.ext hentries]

/-- Whether SHA-256 tells the states apart that can be reached from a state by unused actions. -/
def TellsApart (challenge : PublicChallenge) (state : State) (used : Finset ActionToken) : Prop :=
  CollisionFree {v | ∃ chain state', Fires challenge used chain state state' ∧
    v = .ofJson (fingerprintContent state').json}

theorem sameState_of_fingerprint (hhash : TellsApart challenge state used) {chain' : List ActionToken}
    (hs : Fires challenge used chain state s) (ht : Fires challenge used chain' state t)
    (h : stateFingerprint s = stateFingerprint t) : SameState s t := by
  refine sameState_of_content (CollisionFree.alike hhash ⟨chain, s, hs, rfl⟩ ⟨chain', t, ht, rfl⟩
    (Writable.digestOf_eq (fingerprintContent s)) ?_).ofJson
  rw [Writable.digestOf_eq]
  exact congrArg Except.ok h.symm

/-! ## The search -/

/-- What a state is remembered by. -/
def Pending.key (p : Pending) : Sha256Digest × Finset ActionToken := (stateFingerprint p.state, p.consumed)

omit [Sha256] in
/-- A state that the search meets, after as many actions as it has used up. -/
structure Met (challenge : PublicChallenge) (state : State) (used : Finset ActionToken) (p : Pending) :
    Prop where
  fires : ∃ chain, Fires challenge used chain state p.state ∧ used ⊆ p.consumed ∧
    ∀ token ∈ chain, token ∈ p.consumed
  counted : p.consumed.card = used.card + p.depth

omit [Sha256] in
theorem Met.start (challenge : PublicChallenge) (state : State) (used : Finset ActionToken) :
    Met challenge state used ⟨state, used, 0⟩ :=
  ⟨⟨[], ⟨List.nodup_nil, List.forall_mem_nil _, rfl⟩, Finset.Subset.refl used, List.forall_mem_nil _⟩, rfl⟩

omit [Sha256] in
theorem Met.step {p q : Pending} (h : Met challenge state used p) (hstep : (space challenge).step p q) :
    Met challenge state used q := by
  obtain ⟨action, hmem, hfresh, happlicable, rfl⟩ := hstep
  obtain ⟨chain, ⟨hnodup, hunused, hplay⟩, hconsumed⟩ := h.fires
  have hnew : action.token ∉ chain ∧ action.token ∉ used := by
    constructor
    · exact fun h => hfresh (hconsumed.2 _ h)
    · exact fun h => hfresh (hconsumed.1 h)
  refine ⟨⟨chain ++ [action.token], ⟨List.nodup_append.mpr ⟨hnodup, List.nodup_singleton _, ?_⟩, ?_,
    play_concat hplay hmem happlicable⟩, ?_, ?_⟩, ?_⟩
  · intro a ha b hb hab
    obtain rfl := List.mem_singleton.mp hb
    exact hnew.1 (hab ▸ ha)
  · exact List.forall_mem_append.mpr ⟨hunused, List.forall_mem_singleton.mpr hnew.2⟩
  · exact hconsumed.1.trans (Finset.subset_insert _ _)
  · exact List.forall_mem_append.mpr ⟨fun token htoken => Finset.mem_insert_of_mem (hconsumed.2 token htoken),
      List.forall_mem_singleton.mpr (Finset.mem_insert_self _ _)⟩
  · rw [Finset.card_insert_of_notMem hfresh, h.counted]
    rfl

theorem alike_of_key (hhash : TellsApart challenge state used) {p q : Pending}
    (hp : Met challenge state used p) (hq : Met challenge state used q) (h : p.key = q.key) :
    (space challenge).alike p q := by
  obtain ⟨hfingerprint, hconsumed⟩ := Prod.mk.inj h
  obtain ⟨chain, hfires, -⟩ := hp.fires
  obtain ⟨chain', hfires', -⟩ := hq.fires
  refine ⟨sameState_of_fingerprint hhash hfires hfires' hfingerprint, hconsumed, ?_⟩
  have hcounted := hp.counted
  rw [hconsumed, hq.counted] at hcounted
  exact (Nat.add_left_cancel hcounted).symm

/-- The loop over the actions meets the states that are one step further. -/
theorem explore_inr {current : Pending} {actions : List PublicAction}
    {visited visited' : List (Sha256Digest × Finset ActionToken)} {found found' : List Pending}
    (hactions : ∀ action ∈ actions, action ∈ challenge.actions)
    (h : explore challenge current actions visited found = .inr (visited', found')) :
    ∃ new, found' = found ++ new ∧ visited' = visited ++ new.map Pending.key ∧
      (∀ q ∈ new, (space challenge).step current q ∧ ¬(space challenge).goal q) ∧
      ∀ action ∈ actions, action.token ∉ current.consumed → actionIsApplicable action current.state = true →
        Pending.key ⟨applyEffects action current.state, insert action.token current.consumed,
          current.depth + 1⟩ ∈ visited' := by
  induction actions generalizing visited found with
  | nil =>
      cases h
      exact ⟨[], (List.append_nil _).symm, (List.append_nil _).symm, List.forall_mem_nil _,
        List.forall_mem_nil _⟩
  | cons action rest ih =>
      obtain ⟨hmem, hactions⟩ := List.forall_mem_cons.mp hactions
      simp only [explore] at h
      split_ifs at h with hblocked hgoal hvisited
      · obtain ⟨new, hfound, hvisited, hsteps, hcover⟩ := ih hactions h
        refine ⟨new, hfound, hvisited, hsteps,
          List.forall_mem_cons.mpr ⟨fun hfresh happlicable => ?_, hcover⟩⟩
        rcases hblocked with hused | hblocked
        · exact absurd hused hfresh
        · exact absurd happlicable (by rw [hblocked]; exact Bool.false_ne_true)
      · obtain ⟨new, hfound, rfl, hsteps, hcover⟩ := ih hactions h
        exact ⟨new, hfound, rfl, hsteps, List.forall_mem_cons.mpr
          ⟨fun _ _ => List.mem_append_left _ hvisited, hcover⟩⟩
      · rw [not_or, Bool.not_eq_false] at hblocked
        obtain ⟨new, rfl, rfl, hsteps, hcover⟩ := ih hactions h
        refine ⟨_ :: new, List.append_assoc _ _ _, ?_, List.forall_mem_cons.mpr
          ⟨⟨⟨action, hmem, hblocked.1, hblocked.2, rfl⟩, hgoal⟩, hsteps⟩,
          List.forall_mem_cons.mpr ⟨fun _ _ => ?_, hcover⟩⟩
        · rw [List.map_cons, List.append_assoc]
          rfl
        · exact List.mem_append_left _ (List.mem_append_right _ (List.mem_singleton_self _))

/-- The loop over the actions stops at a state of the goal. -/
theorem exists_goal_of_explore {current : Pending} {actions : List PublicAction}
    {visited : List (Sha256Digest × Finset ActionToken)} {found : List Pending} {steps : Nat}
    (hactions : ∀ action ∈ actions, action ∈ challenge.actions)
    (h : explore challenge current actions visited found = .inl steps) :
    ∃ q, (space challenge).step current q ∧ (space challenge).goal q := by
  induction actions generalizing visited found with
  | nil => cases h
  | cons action rest ih =>
      obtain ⟨hmem, hactions⟩ := List.forall_mem_cons.mp hactions
      simp only [explore] at h
      split_ifs at h with hblocked hgoal
      · exact ih hactions h
      · rw [not_or, Bool.not_eq_false] at hblocked
        exact ⟨_, ⟨action, hmem, hblocked.1, hblocked.2, rfl⟩, hgoal⟩
      · exact ih hactions h
      · exact ih hactions h

/-- The invariant of the search: what is remembered is in the queue, or not behind it. -/
structure Searching (challenge : PublicChallenge) (state : State) (used : Finset ActionToken)
    (pending : List Pending) (visited : List (Sha256Digest × Finset ActionToken)) : Prop where
  leveled : (space challenge).Leveled pending
  opened : ∀ p ∈ pending, ¬(space challenge).goal p
  met : ∀ p ∈ pending, Met challenge state used p
  remembered : ∀ key ∈ visited, ∃ p, Met challenge state used p ∧ p.key = key ∧
    (p ∈ pending ∨ ∀ q ∈ pending, p.depth ≤ q.depth)

theorem Searching.start (hgoal : goalIsReached challenge state = false) :
    Searching challenge state used [⟨state, used, 0⟩] [(stateFingerprint state, used)] where
  leveled := .single _
  opened p hp := by
    obtain rfl := List.mem_singleton.mp hp
    exact Bool.not_eq_true _ ▸ hgoal
  met p hp := by
    obtain rfl := List.mem_singleton.mp hp
    exact Met.start challenge state used
  remembered key hkey := by
    obtain rfl := List.mem_singleton.mp hkey
    exact ⟨_, Met.start challenge state used, rfl, .inl (List.mem_singleton_self _)⟩

variable {current : Pending} {pending found : List Pending}
  {visited visited' : List (Sha256Digest × Finset ActionToken)}

theorem Searching.tail (h : Searching challenge state used (current :: pending) visited) :
    Searching challenge state used pending visited where
  leveled := h.leveled.tail
  opened := fun p hp => h.opened p (List.mem_cons_of_mem _ hp)
  met := fun p hp => h.met p (List.mem_cons_of_mem _ hp)
  remembered key hkey := by
    obtain ⟨p, hp, hpkey, hwhere⟩ := h.remembered key hkey
    refine ⟨p, hp, hpkey, ?_⟩
    rcases hwhere with hmem | hbehind
    · rcases List.mem_cons.mp hmem with rfl | hmem
      · exact .inr h.leveled.head_le
      · exact .inl hmem
    · exact .inr fun q hq => hbehind q (List.mem_cons_of_mem _ hq)

/-- A state is replaced by the states found from it. -/
theorem Searching.expand (hhash : TellsApart challenge state used)
    (h : Searching challenge state used (current :: pending) visited)
    (hfound : explore challenge current challenge.actions visited [] = .inr (visited', found)) :
    Searching challenge state used (pending ++ found) visited' ∧
      (space challenge).arrivals (current :: pending) = (space challenge).arrivals (pending ++ found) := by
  obtain ⟨new, hnew, rfl, hsteps, hcover⟩ := explore_inr (fun _ h => h) hfound
  rw [List.nil_append] at hnew
  subst hnew
  have hstep : ∀ q ∈ found, (space challenge).step current q := fun q hq => (hsteps q hq).1
  have hmet : ∀ q ∈ found, Met challenge state used q := fun q hq =>
    (h.met current List.mem_cons_self).step (hstep q hq)
  have hlow : ∀ q ∈ pending ++ found, current.depth ≤ q.depth :=
    List.forall_mem_append.mpr ⟨h.leveled.head_le, fun q hq => by
      rw [show q.depth = current.depth + 1 from (space challenge).grade_step (hstep q hq)]
      exact Nat.le_succ _⟩
  have hold : ∀ key ∈ visited, ∃ p, Met challenge state used p ∧ p.key = key ∧
      (p ∈ pending ∨ p.depth ≤ current.depth) := by
    intro key hkey
    obtain ⟨p, hp, hpkey, hmem | hbehind⟩ := h.remembered key hkey
    · rcases List.mem_cons.mp hmem with rfl | hmem
      · exact ⟨p, hp, hpkey, .inr (le_refl _)⟩
      · exact ⟨p, hp, hpkey, .inl hmem⟩
    · exact ⟨p, hp, hpkey, .inr (hbehind current List.mem_cons_self)⟩
  refine ⟨⟨h.leveled.expand hstep, ?_, ?_, ?_⟩, ?_⟩
  · exact List.forall_mem_append.mpr ⟨h.tail.opened, fun q hq => (hsteps q hq).2⟩
  · exact List.forall_mem_append.mpr ⟨h.tail.met, hmet⟩
  · intro key hkey
    rcases List.mem_append.mp hkey with hkey | hkey
    · obtain ⟨p, hp, hpkey, hwhere⟩ := hold key hkey
      exact ⟨p, hp, hpkey, hwhere.imp (List.mem_append_left _) fun hle q hq => le_trans hle (hlow q hq)⟩
    · obtain ⟨p, hp, rfl⟩ := List.mem_map.mp hkey
      exact ⟨p, hmet p hp, rfl, .inl (List.mem_append_right _ hp)⟩
  · refine Space.arrivals_expand (h.opened current List.mem_cons_self) hstep fun q hq => ?_
    have hmetq := (h.met current List.mem_cons_self).step hq
    obtain ⟨action, hmem, hfresh, happlicable, rfl⟩ := hq
    rcases List.mem_append.mp (hcover action hmem hfresh happlicable) with hkey | hkey
    · obtain ⟨p, hp, hpkey, hwhere⟩ := hold _ hkey
      have halike := alike_of_key hhash hmetq hp hpkey.symm
      refine ⟨p, List.mem_append_left _ (hwhere.resolve_right fun hle => ?_), halike⟩
      rw [← halike.2.2] at hle
      exact Nat.not_succ_le_self _ hle
    · obtain ⟨p, hp, hpkey⟩ := List.mem_map.mp hkey
      exact ⟨p, List.mem_append_right _ hp, alike_of_key hhash hmetq (hmet p hp) hpkey.symm⟩

/-- The loop over the queue finds the least distance within the bound. -/
theorem leastOf_remainingLoop (hhash : TellsApart challenge state used)
    (h : Searching challenge state used pending visited) :
    LeastOf {m ∈ (space challenge).arrivals pending | m ≤ challenge.maxChainLength}
      (remainingLoop challenge pending visited) := by
  fun_induction remainingLoop challenge pending visited with
  | case1 =>
      refine Set.eq_empty_iff_forall_notMem.mpr ?_
      rintro m ⟨⟨p, hp, -⟩, -⟩
      exact List.not_mem_nil hp
  | case2 visited current pending hdepth ih =>
      rw [Space.arrivals_drop (h.opened current List.mem_cons_self) hdepth]
      exact ih h.tail
  | case3 visited current pending hdepth steps hfound =>
      obtain ⟨q, hq, hgoal⟩ := exists_goal_of_explore (fun _ h => h) hfound
      rw [explore_inl hfound]
      exact Space.isLeast_of_step h.leveled h.opened hq hgoal (Nat.lt_of_not_le hdepth)
  | case4 visited current pending hdepth visited' found hfound ih =>
      obtain ⟨hnext, harrivals⟩ := h.expand hhash hfound
      rw [harrivals]
      exact ih hnext

theorem leastOf_minimumRemainingSteps (hhash : TellsApart challenge state used) :
    LeastOf (distances challenge state used) (minimumRemainingSteps challenge state used) := by
  rw [minimumRemainingSteps]
  split_ifs with hgoal
  · refine ⟨⟨Nat.zero_le _, [], state, ⟨List.nodup_nil, List.forall_mem_nil _, rfl⟩, hgoal, rfl⟩,
      fun n _ => Nat.zero_le n⟩
  · rw [← arrivals_start]
    exact leastOf_remainingLoop hhash (.start (Bool.not_eq_true _ ▸ hgoal))

/-! ## Distances -/

/-- `_minimum_remaining_steps` returns the least number of distinct unused actions, at most the maximum length
of a chain, that lead from a state to the goal, and `None` exactly if no such actions do. -/
theorem minimumRemainingSteps_isLeast (challenge : PublicChallenge) (state : State)
    (used : Finset ActionToken) (hhash : TellsApart challenge state used) :
    (∀ k, minimumRemainingSteps challenge state used = some k ↔ IsLeast (distances challenge state used) k) ∧
    (minimumRemainingSteps challenge state used = none ↔
      ¬∃ chain state', Fires challenge used chain state state' ∧ goalIsReached challenge state' = true ∧
        chain.length ≤ challenge.maxChainLength) := by
  have hleast := leastOf_minimumRemainingSteps hhash
  refine ⟨fun k => hleast.eq_some_iff, hleast.eq_none_iff.trans ?_⟩
  rw [Set.eq_empty_iff_forall_notMem]
  constructor
  · rintro hempty ⟨chain, state', hfires, hgoal, hlength⟩
    exact hempty chain.length ⟨hlength, chain, state', hfires, hgoal, rfl⟩
  · rintro hno n ⟨hn, chain, state', hfires, hgoal, rfl⟩
    exact hno ⟨chain, state', hfires, hgoal, hn⟩

omit [Sha256] in
/-- Chains do not leave states that are closed under the actions. -/
theorem play_mem {states : List State} (hclosed : ∀ s ∈ states, ∀ action ∈ challenge.actions,
      actionIsApplicable action s = true → applyEffects action s ∈ states)
    (hs : s ∈ states) (h : play challenge chain s = some state') : state' ∈ states := by
  induction chain generalizing s with
  | nil => exact Option.some.inj h ▸ hs
  | cons token chain ih =>
      rw [play] at h
      cases haction : challenge.catalog.get? token with
      | none =>
          rw [haction] at h
          cases h
      | some action =>
          rw [haction] at h
          obtain ⟨happlicable, h⟩ := Option.ite_none_right_eq_some.mp h
          exact ih (hclosed s hs action (action_of_catalog haction).1 happlicable) h

namespace Detour

/-- The state in which only the last action can be fired. -/
def ready : State :=
  ⟨[(first, true), (second, true), (third, true), (noise, true), (goal, false)], by decide +kernel⟩

def done : State := applyEffects final ready

end Detour

omit [Sha256] in
/-- One action is left when all flags but the goal are set. -/
theorem minimumRemainingSteps_isLeast_detour : let _ := Sha2.sha256
    (∀ k, minimumRemainingSteps Detour.challenge Detour.ready ∅ = some k ↔
      IsLeast (distances Detour.challenge Detour.ready ∅) k) ∧
    (minimumRemainingSteps Detour.challenge Detour.ready ∅ = none ↔
      ¬∃ chain state', Fires Detour.challenge ∅ chain Detour.ready state' ∧
        goalIsReached Detour.challenge state' = true ∧ chain.length ≤ Detour.challenge.maxChainLength) := by
  intro _
  refine minimumRemainingSteps_isLeast Detour.challenge Detour.ready ∅ ?_
  have hdigests : ([Detour.ready, Detour.done].map fun s => (fingerprintContent s).digest).Nodup := by
    decide +kernel
  refine CollisionFree.mono (collisionFree_of_nodup (fun s _ => Writable.digestOf_eq (fingerprintContent s))
    hdigests) ?_
  rintro v ⟨chain, state', ⟨-, -, hplay⟩, rfl⟩
  exact ⟨state', play_mem (by decide +kernel) List.mem_cons_self hplay, rfl⟩

end StateWeaver.StateChainBench

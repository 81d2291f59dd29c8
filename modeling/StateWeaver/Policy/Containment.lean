import StateWeaver.Lib.Segments
import StateWeaver.Policy.Grants

/-!
# The path that reaches the target

The evaluator matches the path of an action as it is written, and a client resolves the dot segments of
that path before it sends it. A path pattern of a scope has no `..` segment, but a path of an action
may have one. Without dot segments both paths are the same; with one, some scope allows an action that
reaches a path which that scope excludes.
-/

namespace StateWeaver.Policy

open Contracts

/-! ## Resolved paths -/

/-- The segments of a path that starts with a slash. -/
def pathSegments (path : PathPattern) : List (List Char) := (path.val.toList.drop 1).splitOn '/'

/-- The path that is sent: without `.` segments, and with every `..` segment resolved. -/
def resolvedPath (path : PathPattern) : List Char :=
  Segments.join '/' (Segments.removeDots ['.'] ['.', '.'] [] (pathSegments path))

/-- Whether a path has neither `.` nor `..` segments. -/
def DotFree (path : PathPattern) : Prop :=
  ∀ segment ∈ pathSegments path, segment ≠ ['.'] ∧ segment ≠ ['.', '.']

instance (path : PathPattern) : Decidable (DotFree path) :=
  inferInstanceAs (Decidable (∀ segment ∈ pathSegments path, _))

/-- A path is its segments, each behind a slash. -/
theorem join_pathSegments (path : PathPattern) :
    Segments.join '/' (pathSegments path) = path.val.toList := by
  have hpattern := path.matchesPattern
  simp only [isPathPattern, Bool.and_eq_true, beq_iff_eq] at hpattern
  obtain ⟨rest, hrest⟩ := List.head?_eq_some_iff.mp hpattern.1.2
  rw [pathSegments, Segments.join_splitOn, hrest, List.drop_one, List.tail_cons]

theorem resolvedPath_of_dotFree {path : PathPattern} (h : DotFree path) :
    resolvedPath path = path.val.toList := by
  rw [resolvedPath, Segments.removeDots_eq h, List.reverse_nil, List.nil_append, join_pathSegments]

/-! ## A pattern for the shape of a path -/

/-- The pattern of paths with one segment for every mark; only marked segments may have characters. -/
def shapePattern (marks : List Bool) : List Char :=
  Segments.join '/' (marks.map fun marked => if marked then ['*'] else [])

def shapeGlobs (marks : List Bool) : List Glob :=
  marks.flatMap fun marked => .literal '/' :: if marked then [.segment] else []

theorem globs_shapePattern (marks : List Bool) : globs (shapePattern marks) = shapeGlobs marks := by
  induction marks with
  | nil => rfl
  | cons marked marks ih =>
      rw [shapePattern] at ih ⊢
      rw [shapeGlobs, List.map_cons, Segments.join, List.flatMap_cons, List.flatMap_cons, ← shapeGlobs,
        ← Segments.join, ← ih]
      cases marked with
      | false => rfl
      | true => cases marks <;> rfl

/-- What a mark says about its segment. -/
def FitsMark (marked : Bool) (segment : List Char) : Prop :=
  '/' ∉ segment ∧ (marked = false → segment = [])

theorem matches_shapeGlobs_iff {marks : List Bool} {path : List Char} :
    Matches (shapeGlobs marks) path ↔
      ∃ segments, path = Segments.join '/' segments ∧ List.Forall₂ FitsMark marks segments := by
  induction marks generalizing path with
  | nil =>
      constructor
      · intro h
        cases h
        exact ⟨[], rfl, .nil⟩
      · rintro ⟨segments, rfl, hfits⟩
        cases hfits
        exact .nil
  | cons marked marks ih =>
      rw [shapeGlobs, List.flatMap_cons, ← shapeGlobs]
      constructor
      · intro h
        cases marked with
        | false =>
            cases h with
            | literal h =>
                obtain ⟨segments, rfl, hfits⟩ := ih.mp h
                exact ⟨[] :: segments, rfl, .cons ⟨List.not_mem_nil, fun _ => rfl⟩ hfits⟩
        | true =>
            cases h with
            | literal h =>
                cases h with
                | @segment part _ _ hpart h =>
                    obtain ⟨segments, rfl, hfits⟩ := ih.mp h
                    exact ⟨part :: segments, rfl,
                      .cons ⟨fun hslash => hpart _ hslash rfl, nofun⟩ hfits⟩
      · rintro ⟨segments, rfl, hfits⟩
        cases hfits with
        | @cons _ segment _ segments hfit hfits =>
            have hrest := ih.mpr ⟨segments, rfl, hfits⟩
            cases marked with
            | false =>
                rw [hfit.2 rfl]
                exact .literal hrest
            | true => exact .literal (.segment (fun c hc hslash => hfit.1 (hslash ▸ hc)) hrest)

/-- The marks of some segments: those with characters, and the first one unless it is all there is. -/
def marksOf : List (List Char) → List Bool
  | [] => []
  | segment :: rest => (!segment.isEmpty || !rest.isEmpty) :: rest.map (!·.isEmpty)

theorem fitsMark_isEmpty {segment : List Char} (h : '/' ∉ segment) : FitsMark (!segment.isEmpty) segment :=
  ⟨h, fun hnot => by simpa using hnot⟩

theorem fits_marksOf {segments : List (List Char)} (h : ∀ segment ∈ segments, '/' ∉ segment) :
    List.Forall₂ FitsMark (marksOf segments) segments := by
  cases segments with
  | nil => exact .nil
  | cons segment rest =>
      obtain ⟨hsegment, hrest⟩ := List.forall_mem_cons.mp h
      refine .cons ⟨hsegment, fun hnot => ?_⟩ ?_
      · rw [Bool.or_eq_false_iff] at hnot
        exact (fitsMark_isEmpty hsegment).2 hnot.1
      · rw [List.forall₂_map_left_iff, List.forall₂_same]
        exact fun segment hmem => fitsMark_isEmpty (hrest segment hmem)

theorem length_marksOf (segments : List (List Char)) :
    (marksOf segments).length = segments.length := by
  cases segments with
  | nil => rfl
  | cons segment rest => rw [marksOf, List.length_cons, List.length_map, List.length_cons]

theorem getLast?_marksOf {segments : List (List Char)} (h : segments.getLast? = some []) :
    (marksOf segments).getLast? = some false := by
  cases segments with
  | nil => cases h
  | cons segment rest =>
      cases rest with
      | nil =>
          rw [List.getLast?_singleton, Option.some.injEq] at h
          rw [h]
          rfl
      | cons segment' rest =>
          rw [List.getLast?_cons_cons] at h
          have hlast := congrArg (Option.map (!·.isEmpty)) h
          rw [← List.getLast?_map, List.map_cons] at hlast
          rw [marksOf, List.map_cons, List.getLast?_cons_cons, hlast]
          rfl

theorem forall_not_mem_of_fits {marks : List Bool} {segments : List (List Char)}
    (h : List.Forall₂ FitsMark marks segments) : ∀ segment ∈ segments, '/' ∉ segment := by
  induction h with
  | nil => exact nofun
  | cons hfit _ ih => exact List.forall_mem_cons.mpr ⟨hfit.1, ih⟩

theorem getLast?_of_fits {marks : List Bool} {segments : List (List Char)}
    (h : List.Forall₂ FitsMark marks segments) (hlast : marks.getLast? = some false) :
    segments.getLast? = some [] := by
  induction h with
  | nil => cases hlast
  | cons hfit htail ih =>
      cases htail with
      | nil =>
          rw [List.getLast?_singleton, Option.some.injEq] at hlast
          rw [List.getLast?_singleton, hfit.2 hlast]
      | cons hfit' htail =>
          rw [List.getLast?_cons_cons] at hlast ⊢
          exact ih hlast

/-- The pattern is at most one character longer than the path. -/
theorem length_shapePattern_le (segments : List (List Char)) :
    (shapePattern (marksOf segments)).length ≤ Segments.weight segments + 1 := by
  have hstar : ∀ segment : List Char,
      (if (!segment.isEmpty) = true then ['*'] else []).length ≤ segment.length := by
    intro segment
    cases segment with
    | nil => exact Nat.le_refl _
    | cons c rest => exact Nat.succ_le_succ (Nat.zero_le _)
  have hrest : ∀ rest : List (List Char),
      Segments.weight ((rest.map (!·.isEmpty)).map fun marked => if marked then ['*'] else []) ≤
        Segments.weight rest := by
    intro rest
    induction rest with
    | nil => exact Nat.le_refl _
    | cons segment rest ih =>
        have hle := hstar segment
        rw [List.map_cons, List.map_cons, Segments.weight_cons, Segments.weight_cons]
        omega
  rw [shapePattern, Segments.length_join]
  cases segments with
  | nil => exact Nat.zero_le _
  | cons segment rest =>
      have hle := hrest rest
      rw [marksOf, List.map_cons, Segments.weight_cons, Segments.weight_cons]
      have hhead : (if (!segment.isEmpty || !rest.isEmpty) = true then ['*'] else []).length ≤ 1 := by
        split <;> simp
      omega

theorem mem_shapePattern {marks : List Bool} {c : Char} (h : c ∈ shapePattern marks) :
    c = '/' ∨ c = '*' := by
  rw [shapePattern, Segments.join, List.mem_flatMap] at h
  obtain ⟨segment, hsegment, hc⟩ := h
  obtain ⟨marked, -, rfl⟩ := List.mem_map.mp hsegment
  rcases List.mem_cons.mp hc with rfl | hc
  · exact Or.inl rfl
  · cases marked with
    | false => cases hc
    | true => exact Or.inr (List.mem_singleton.mp hc)

/-- The pattern does not start with two slashes. -/
theorem take_shapePattern (segments : List (List Char)) :
    (shapePattern (marksOf segments)).take 2 ≠ ['/', '/'] := by
  cases segments with
  | nil => exact nofun
  | cons segment rest =>
      cases rest with
      | nil => cases segment <;> exact nofun
      | cons segment' rest => cases segment <;> exact nofun

/-- A path with a dot segment has a pattern, admitted in a selector, that stands for the resolved path
and not for the path itself. -/
theorem exists_pattern_of_not_dotFree {path : PathPattern} (h : ¬ DotFree path) :
    ∃ pattern : PathPattern, isSafePath pattern.val = true ∧
      Matches (globs pattern.val.toList) (resolvedPath path) ∧
      ¬ Matches (globs pattern.val.toList) path.val.toList := by
  have hsome : ∃ segment ∈ pathSegments path, segment = ['.'] ∨ segment = ['.', '.'] := by
    rw [DotFree] at h
    push Not at h
    obtain ⟨segment, hmem, hdot⟩ := h
    exact ⟨segment, hmem, Classical.or_iff_not_imp_left.mpr hdot⟩
  have hnil : pathSegments path ≠ [] := List.splitOn_ne_nil _ _
  have hslash : ∀ segment ∈ pathSegments path, '/' ∉ segment :=
    fun segment => Segments.not_mem_of_mem_splitOn
  set resolved := Segments.removeDots ['.'] ['.', '.'] [] (pathSegments path) with hresolved
  have hresolvedSlash : ∀ segment ∈ resolved, '/' ∉ segment := by
    intro segment hmem
    rcases Segments.mem_of_mem_removeDots hmem with rfl | hmem | hmem
    · exact List.not_mem_nil
    · cases hmem
    · exact hslash segment hmem
  have hshrinks : Segments.Shrinks (pathSegments path) resolved :=
    Segments.shrinks_removeDots (List.cons_ne_nil _ _) (List.cons_ne_nil _ _) hsome []
  have hpattern := path.matchesPattern
  simp only [isPathPattern, hasLength, Bool.and_eq_true, decide_eq_true_eq] at hpattern
  have hlength := hpattern.1.1.2
  rw [← join_pathSegments, Segments.length_join] at hlength
  have hchars : ∀ c ∈ shapePattern (marksOf resolved), c = '/' ∨ c = '*' := fun c => mem_shapePattern
  have hresolvedNil : resolved ≠ [] := Segments.removeDots_ne_nil hnil
  obtain ⟨segment, rest, hcons⟩ := List.exists_cons_of_ne_nil hresolvedNil
  refine ⟨⟨String.ofList (shapePattern (marksOf resolved)), ?_⟩, ?_, ?_, ?_⟩
  · have hle := length_shapePattern_le resolved
    have hweight := hshrinks.weight
    have hhead : (shapePattern (marksOf resolved)).head? = some '/' := by
      rw [hcons]
      rfl
    simp only [isPathPattern, hasLength, String.toList_ofList, Bool.and_eq_true, decide_eq_true_eq,
      beq_iff_eq, List.all_eq_true, bne_iff_ne]
    refine ⟨⟨⟨?_, by omega⟩, hhead⟩, fun c hc => ?_⟩
    · rw [Nat.succ_le_iff, List.length_pos_iff]
      intro hempty
      rw [hempty] at hhead
      cases hhead
    · rcases hchars c hc with rfl | rfl <;> decide
  · simp only [isSafePath, String.toList_ofList, Bool.and_eq_true, decide_eq_true_eq,
      Bool.not_eq_true', List.contains_eq_mem, decide_eq_false_iff_not]
    refine ⟨take_shapePattern resolved, fun hmem => ?_⟩
    rcases hchars '.' (Segments.mem_of_mem_splitOn hmem List.mem_cons_self) with h | h <;>
      exact absurd h (by decide)
  · rw [String.toList_ofList, globs_shapePattern]
    exact matches_shapeGlobs_iff.mpr ⟨resolved, rfl, fits_marksOf hresolvedSlash⟩
  · rw [String.toList_ofList, globs_shapePattern]
    intro hmatches
    obtain ⟨segments, hjoin, hfits⟩ := matches_shapeGlobs_iff.mp hmatches
    rw [← join_pathSegments] at hjoin
    have heq := Segments.eq_of_join_eq hslash (forall_not_mem_of_fits hfits) hjoin
    rw [← heq] at hfits
    -- As many segments as before: the last one was a dot segment, and its mark is not set.
    have hlengths := hfits.length_eq
    rw [length_marksOf] at hlengths
    obtain ⟨hlast, hnot⟩ := hshrinks.last hlengths
    exact hnot (getLast?_of_fits hfits (getLast?_marksOf hlast))

/-! ## Containment -/

/-- Whether the path that is sent is inside of a scope. -/
def Contained (targets : ScopeTargets) (target : ActionTarget) : Prop :=
  (∃ selector ∈ targets.include_, Covers selector target.host target.port (resolvedPath target.path)) ∧
    ∀ selector ∈ targets.exclude,
      ¬ Covers selector target.host target.port (resolvedPath target.path)

/-- Whether every scope that allows an action contains the path that is sent. -/
def AlwaysContained (envelope : ActionEnvelope) (target : ActionTarget) : Prop :=
  ∀ c : Context, c.envelope = envelope → (evaluate (some c.request)).outcome = .allow →
    Contained c.manifest.spec.targets target

theorem alwaysContained_of_dotFree {envelope : ActionEnvelope} {target : ActionTarget}
    (htarget : targetField envelope.action = some (some target)) (h : DotFree target.path) :
    AlwaysContained envelope target := by
  rintro c rfl hallowed
  obtain ⟨target', hsome, hcontained⟩ :=
    (c.outcome_allow_iff.mp hallowed).cleared.target _ htarget
  cases hsome
  rw [Contained, resolvedPath_of_dotFree h]
  exact hcontained

/-- An action that can act at all acts under a name that a scope can list. -/
theorem exists_name {envelope : ActionEnvelope} (h : Allowable envelope) :
    ∃ name : Name, ∀ identity, identityField envelope.action = some (some identity) →
      "identity:" ++ name.val = identity.val := by
  rcases hfield : identityField envelope.action with _ | field
  · exact ⟨⟨"nobody", by decide +kernel⟩, nofun⟩
  · obtain ⟨identity, rfl, hlength⟩ := h.identity field hfield
    refine ⟨⟨_, isName_removePrefix hlength⟩, fun identity' hsome => ?_⟩
    cases hsome
    exact append_shortName identity

/-- With a dot segment, some scope allows the action although it excludes the path that is sent. -/
theorem not_alwaysContained {envelope : ActionEnvelope} {target : ActionTarget}
    (htarget : targetField envelope.action = some (some target)) (hdots : ¬ DotFree target.path)
    (h : Allowable envelope) : ¬ AlwaysContained envelope target := by
  intro hcontained
  obtain ⟨pattern, hsafe, hresolved, hnot⟩ := exists_pattern_of_not_dotFree hdots
  obtain ⟨name, hname⟩ := exists_name h
  let selector : TargetSelector :=
    ⟨none, [], [pattern], List.forall_mem_nil _, List.forall_mem_singleton.mpr hsafe,
      Or.inr (Or.inr (List.cons_ne_nil _ _)), fun h => absurd rfl h, .nil, List.nodup_singleton _⟩
  have hcovers : ∀ path, Covers selector target.host target.port path ↔
      Matches (globs pattern.val.toList) path := by
    intro path
    constructor
    · rintro ⟨-, -, hpaths⟩
      obtain ⟨pattern', hmem, hmatches⟩ := hpaths (List.cons_ne_nil _ _)
      rwa [List.mem_singleton.mp hmem] at hmatches
    · intro hmatches
      exact ⟨(fun _ h => by cases h), fun h => absurd rfl h, fun _ => ⟨pattern, List.mem_cons_self, hmatches⟩⟩
  have hpermitted : (grant envelope name target.host [selector] (List.nodup_singleton _)).Permitted := by
    refine permitted_grant h hname fun target' hsome => ?_
    rw [htarget] at hsome
    cases hsome
    exact ⟨rfl, List.forall_mem_singleton.mpr fun hraw => hnot ((hcovers _).mp hraw)⟩
  obtain ⟨-, hexcluded⟩ := hcontained _ rfl ((Context.outcome_allow_iff _).mpr hpermitted)
  exact hexcluded selector List.mem_cons_self ((hcovers _).mpr hresolved)

/-- Every scope that allows an action contains the path that is sent exactly if the path has no dot
segments, or if no scope can allow the action anyway. -/
theorem alwaysContained_iff {envelope : ActionEnvelope} {target : ActionTarget}
    (htarget : targetField envelope.action = some (some target)) :
    AlwaysContained envelope target ↔ DotFree target.path ∨ ¬ Allowable envelope := by
  constructor
  · intro hcontained
    by_contra hnot
    obtain ⟨hdots, hallowable⟩ := not_or.mp hnot
    exact not_alwaysContained htarget hdots (not_not.mp hallowable) hcontained
  · rintro (hfree | hbarred)
    · exact alwaysContained_of_dotFree htarget hfree
    · rintro c rfl hallowed
      exact absurd (allowable_of_allowed hallowed) hbarred

/-! ## A path that leaves its scope -/

namespace Demo

def escapingPath : PathPattern := ⟨"/public/../admin", by decide +kernel⟩

theorem noPorts_inRange : ∀ port ∈ ([] : List Nat), 1 ≤ port ∧ port ≤ 65535 := List.forall_mem_nil _

theorem noPorts_unique : ([] : List Nat).Nodup := List.nodup_nil

theorem noTargets_unique : ([] : List TargetSelector).Nodup := List.nodup_nil

/-- Only `/public/**` is included. -/
def publicTargets : ScopeTargets where
  include_ := [
    { host := some host
      ports := []
      paths := [⟨"/public/**", by decide +kernel⟩]
      portsInRange := noPorts_inRange
      pathsSafe := by decide +kernel
      constrained := Or.inl nofun
      portsOfHost := nofun
      portsUnique := noPorts_unique
      pathsUnique := List.nodup_singleton _ }]
  exclude := []
  includeExplicit := nofun
  includeHosts := List.forall_mem_singleton.mpr nofun
  includeUnique := List.nodup_singleton _
  excludeUnique := noTargets_unique

def escape : Context :=
  let c := grant (navigation escapingPath) aliceName host [] noTargets_unique
  { c with manifest := { c.manifest with spec := { c.manifest.spec with targets := publicTargets } } }

/-- The navigation is allowed, and the path that is sent, `/admin`, is not included. -/
theorem not_contained : targetField escape.envelope.action = some (some (target escapingPath)) ∧
    (evaluate (some escape.request)).outcome = .allow ∧
    ¬ Contained escape.manifest.spec.targets (target escapingPath) := by
  refine ⟨rfl, by decide +kernel, ?_⟩
  rintro ⟨⟨selector, hselector, -, -, hpaths⟩, -⟩
  rw [List.mem_singleton.mp hselector] at hpaths
  obtain ⟨pattern, hpattern, hmatches⟩ := hpaths nofun
  rw [List.mem_singleton.mp hpattern, ← matchGlobs_iff] at hmatches
  exact absurd hmatches (by decide +kernel)

theorem not_alwaysContained_escaping :
    ¬ AlwaysContained (navigation escapingPath) (target escapingPath) := by
  rw [alwaysContained_iff rfl]
  rintro (hfree | hbarred)
  · exact absurd hfree (by decide +kernel)
  · refine hbarred ⟨fun field hfield => ⟨alice, ?_, by decide +kernel⟩, by decide, 0, rfl, by decide⟩
    cases hfield
    rfl

end Demo

end StateWeaver.Policy

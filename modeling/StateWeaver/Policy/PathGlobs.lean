import StateWeaver.Policy.Specification

/-!
# Paths from patterns

A pattern stands for the paths that are obtained when each `**` is replaced by some text and each other
`*` by some text without a slash. The matcher reads a pattern as an expression in which `**` does not match
a line feed, and a path may have one.
-/

namespace StateWeaver.Policy

open Contracts

/-! ## Specification -/

/-- A path is obtained from a pattern. The characters for which a `**` stands are limited by a predicate. -/
inductive Obtained (admits : Char → Prop) : List Char → List Char → Prop
  | nil : Obtained admits [] []
  | any {part rest path} (hpart : ∀ c ∈ part, admits c) (h : Obtained admits rest path) :
      Obtained admits ('*' :: '*' :: rest) (part ++ path)
  | segment {part rest path} (hrest : rest.head? ≠ some '*') (hpart : ∀ c ∈ part, c ≠ '/')
      (h : Obtained admits rest path) : Obtained admits ('*' :: rest) (part ++ path)
  | literal {c rest path} (hc : c ≠ '*') (h : Obtained admits rest path) :
      Obtained admits (c :: rest) (c :: path)

/-- The path can be obtained without a line feed in what replaces a `**`, or not at all. -/
def InLine (pattern path : PathPattern) : Prop :=
  Obtained (fun _ => True) pattern.val.toList path.val.toList →
    Obtained (· ≠ '\n') pattern.val.toList path.val.toList

/-- What patterns mean for one path. -/
structure GlobSemantics (path : PathPattern) : Prop where
  exact : ∀ pattern : PathPattern, isSafePath pattern.val = true →
    (pathMatches pattern.val path.val = true ↔
      Obtained (fun _ => True) pattern.val.toList path.val.toList)
  /-- No match is lost if a `*` is replaced by `**`. -/
  widened : ∀ pattern wider : PathPattern, isSafePath pattern.val = true → isSafePath wider.val = true →
    ∀ before after, pattern.val.toList = before ++ '*' :: after →
      wider.val.toList = before ++ '*' :: '*' :: after →
      pathMatches pattern.val path.val = true → pathMatches wider.val path.val = true
  /-- What is below a literal path matches the path with `/**`. -/
  covered : ∀ pattern : PathPattern, isSafePath pattern.val = true → ∀ stem, '*' ∉ stem →
    pattern.val.toList = stem ++ ['/', '*', '*'] → stem ++ ['/'] <+: path.val.toList →
    pathMatches pattern.val path.val = true

/-! ## Patterns -/

variable {admits : Char → Prop} {pattern path rest : List Char}

theorem globs_star (h : rest.head? ≠ some '*') : globs ('*' :: rest) = .segment :: globs rest := by
  match rest with
  | [] => rfl
  | c :: rest =>
      have hc : c ≠ '*' := fun heq => h (by rw [heq]; rfl)
      rw [globs]
      rintro rest' ⟨⟩
      exact hc rfl

theorem globs_literal {c : Char} (h : c ≠ '*') : globs (c :: rest) = .literal c :: globs rest := by
  rw [globs]
  · rintro rest' rfl -
    exact h rfl
  · rintro rfl
    exact h rfl

/-- The matcher reads a pattern as the texts it stands for, without line feeds in those for `**`. -/
theorem matches_globs_iff : Matches (globs pattern) path ↔ Obtained (· ≠ '\n') pattern path := by
  constructor
  · intro h
    induction pattern using globs.induct generalizing path with
    | case1 rest ih =>
        rw [globs] at h
        cases h with
        | any hpart h => exact .any hpart (ih h)
    | case2 rest hrest ih =>
        have hhead : rest.head? ≠ some '*' := by
          intro heq
          obtain ⟨rest', rfl⟩ := List.head?_eq_some_iff.mp heq
          exact hrest rest' rfl
        rw [globs_star hhead] at h
        cases h with
        | segment hpart h => exact .segment hhead hpart (ih h)
    | case3 c rest hrest hstar ih =>
        rw [globs_literal hstar] at h
        cases h with
        | literal h => exact .literal hstar (ih h)
    | case4 =>
        cases h
        exact .nil
  · intro h
    induction h with
    | nil => exact .nil
    | any hpart _ ih => exact .any hpart ih
    | segment hrest hpart _ ih => exact globs_star hrest ▸ .segment hpart ih
    | literal hc _ ih => exact globs_literal hc ▸ .literal ih

theorem pathMatches_iff {pattern path : String} :
    pathMatches pattern path = true ↔ Obtained (· ≠ '\n') pattern.toList path.toList := by
  rw [pathMatches, matchGlobs_iff, matches_globs_iff]

/-! ## Obtained paths -/

/-- What may replace a `**` matters for the characters of the path only. -/
theorem Obtained.mono {admits' : Char → Prop} (hadmits : ∀ c ∈ path, admits c → admits' c)
    (h : Obtained admits pattern path) : Obtained admits' pattern path := by
  induction h with
  | nil => exact .nil
  | any hpart _ ih =>
      rw [List.forall_mem_append] at hadmits
      exact .any (fun c hc => hadmits.1 c hc (hpart c hc)) (ih hadmits.2)
  | segment hrest hpart _ ih =>
      rw [List.forall_mem_append] at hadmits
      exact .segment hrest hpart (ih hadmits.2)
  | literal hc _ ih =>
      rw [List.forall_mem_cons] at hadmits
      exact .literal hc (ih hadmits.2)

/-- A star in front of a pattern may stand for nothing. -/
theorem Obtained.star (hadmits : ∀ c ∈ path, admits c) (h : Obtained admits rest path) :
    Obtained admits ('*' :: rest) path := by
  have hnone : ∀ c ∈ ([] : List Char), c ≠ '/' := List.forall_mem_nil _
  induction rest using globs.induct generalizing path with
  | case1 rest ih =>
      cases h with
      | any hpart h =>
          rw [List.forall_mem_append] at hadmits
          exact .any hpart (ih hadmits.2 h)
      | segment hrest => exact absurd rfl hrest
      | literal hc => exact absurd rfl hc
  | case2 rest hrest ih =>
      cases h with
      | any => exact absurd rfl (hrest _)
      | segment _ _ h =>
          rw [List.forall_mem_append] at hadmits
          exact .any hadmits.1 h
      | literal hc => exact absurd rfl hc
  | case3 c rest _ hstar ih =>
      refine @Obtained.segment _ [] _ _ (fun heq => hstar ?_) hnone h
      exact Option.some.inj heq
  | case4 => exact @Obtained.segment _ [] _ _ nofun hnone h

/-- No path is lost if a star is added anywhere in a pattern. -/
theorem Obtained.insert_star {before after : List Char} (hadmits : ∀ c ∈ path, admits c)
    (h : Obtained admits (before ++ after) path) : Obtained admits (before ++ '*' :: after) path := by
  induction before using globs.induct generalizing path with
  | case1 before ih =>
      cases h with
      | any hpart h =>
          rw [List.forall_mem_append] at hadmits
          exact .any hpart (ih hadmits.2 h)
      | segment hrest => exact absurd rfl hrest
      | literal hc => exact absurd rfl hc
  | case2 before hbefore ih =>
      match before, hbefore, h with
      | [], _, h => exact h.star hadmits
      | c :: before, hbefore, h =>
          have hc : c ≠ '*' := by
            rintro rfl
            exact hbefore before rfl
          have hhead : ((c :: before) ++ '*' :: after).head? ≠ some '*' := fun heq =>
            hc (Option.some.inj heq)
          generalize htail : c :: before ++ after = tail at h
          rw [List.cons_append, htail] at h
          cases h with
          | any =>
              rw [List.cons_append, List.cons.injEq] at htail
              exact absurd htail.1 hc
          | segment _ hpart h =>
              rw [List.forall_mem_append] at hadmits
              subst htail
              exact .segment hhead hpart (ih hadmits.2 h)
          | literal hstar => exact absurd rfl hstar
  | case3 c before _ hstar ih =>
      generalize htail : before ++ after = tail at h
      rw [List.cons_append, htail] at h
      cases h with
      | any => exact absurd rfl hstar
      | segment => exact absurd rfl hstar
      | literal hc h =>
          rw [List.forall_mem_cons] at hadmits
          subst htail
          exact .literal hc (ih hadmits.2 h)
  | case4 => exact h.star hadmits

/-- A pattern that ends in `**` stands for all that starts with what is before it. -/
theorem Obtained.stem {stem tail : List Char} (hstem : '*' ∉ stem) :
    Obtained (fun _ => True) (stem ++ ['*', '*']) (stem ++ tail) := by
  induction stem with
  | nil =>
      rw [List.nil_append, List.nil_append, ← List.append_nil tail]
      exact .any (fun _ _ => trivial) .nil
  | cons c stem ih =>
      rw [List.mem_cons, not_or] at hstem
      exact .literal (Ne.symm hstem.1) (ih hstem.2)

/-! ## Paths without line feeds -/

theorem exists_tail (path : PathPattern) : ∃ tail, path.val.toList = '/' :: tail := by
  have hpattern := path.matchesPattern
  simp only [isPathPattern, Bool.and_eq_true, beq_iff_eq] at hpattern
  exact List.head?_eq_some_iff.mp hpattern.1.2

def below : PathPattern := ⟨"/**", by decide⟩

/-- The semantics of patterns holds for the paths without line feeds. -/
theorem globSemantics_iff {path : PathPattern} : GlobSemantics path ↔ '\n' ∉ path.val.toList := by
  constructor
  · intro h hmem
    obtain ⟨tail, htail⟩ := exists_tail path
    have hmatch := h.covered below (by decide) [] List.not_mem_nil rfl ⟨tail, htail.symm⟩
    rw [pathMatches_iff, htail] at hmatch
    rw [htail, List.mem_cons] at hmem
    cases hmatch with
    | literal _ hmatch =>
        cases hmatch with
        | any hpart hrest =>
            cases hrest
            rw [List.append_nil] at hmem
            exact hpart _ (hmem.resolve_left (by decide)) rfl
        | segment hstar => exact absurd rfl hstar
        | literal hstar => exact absurd rfl hstar
  · intro hline
    have hexact : ∀ pattern : PathPattern, pathMatches pattern.val path.val = true ↔
        Obtained (fun _ => True) pattern.val.toList path.val.toList := by
      intro pattern
      rw [pathMatches_iff]
      refine ⟨.mono fun _ _ _ => trivial, .mono fun c hc _ => ?_⟩
      rintro rfl
      exact hline hc
    refine ⟨fun pattern _ => hexact pattern, fun pattern wider _ _ before after hpattern hwider => ?_,
      fun pattern _ stem hstem hpattern hprefix => ?_⟩
    · rw [hexact, hexact, hpattern, hwider]
      exact .insert_star fun _ _ => trivial
    · obtain ⟨tail, htail⟩ := hprefix
      have hslash : '*' ∉ stem ++ ['/'] := by simpa using hstem
      rw [hexact, hpattern, ← htail, List.append_cons]
      exact .stem hslash

/-- A match is what a pattern stands for if no line feed has to replace a `**`. Every pattern means this for
the paths without line feeds, and no others. -/
theorem pathMatches_iff_obtained (pattern path : PathPattern) :
    ((pathMatches pattern.val path.val = true ↔
      Obtained (fun _ => True) pattern.val.toList path.val.toList) ↔ InLine pattern path) ∧
    (GlobSemantics path ↔ '\n' ∉ path.val.toList) := by
  refine ⟨?_, globSemantics_iff⟩
  rw [pathMatches_iff]
  exact ⟨fun h => h.mpr, fun h => ⟨.mono fun _ _ _ => trivial, h⟩⟩

def belowX : PathPattern := ⟨"/x/**", by decide⟩

def inX : PathPattern := ⟨"/x/*", by decide⟩

def brokenPath : PathPattern := ⟨"/x/a\nb", by decide⟩

/-- A path with a line feed is matched by a pattern with `*`, but not if `**` replaces it. -/
theorem not_globSemantics_brokenPath :
    Obtained (fun _ => True) belowX.val.toList brokenPath.val.toList ∧
      pathMatches belowX.val brokenPath.val = false ∧ pathMatches inX.val brokenPath.val = true :=
  ⟨.literal (by decide) (.literal (by decide) (.literal (by decide)
    (@Obtained.any _ ['a', '\n', 'b'] _ _ (fun _ _ => trivial) .nil))), by decide, by decide⟩

end StateWeaver.Policy

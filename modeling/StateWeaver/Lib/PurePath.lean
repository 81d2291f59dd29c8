import StateWeaver.Lib.AsciiJson

/-!
# Texts and paths

Methods of Python's `str`, and `PurePosixPath`, which keeps the components of a path without the empty ones and
without the points. Two paths with one text have one form, but a text need not be that of its path.
-/

namespace Py

/-! ## Separators -/

section Cut

variable {α : Type} [DecidableEq α]

/-- What comes before and after the first occurrence of a separator. -/
def cut? (separator : List α) : List α → Option (List α × List α)
  | [] => if separator = [] then some ([], []) else none
  | c :: rest =>
      if separator <+: c :: rest then some ([], (c :: rest).drop separator.length)
      else (cut? separator rest).map fun p => (c :: p.1, p.2)

/-- `text.partition(separator)`, with whether the separator occurs in place of the separator. -/
def partition (separator text : List α) : List α × Bool × List α :=
  match cut? separator text with
  | some (before, after) => (before, true, after)
  | none => (text, false, [])

theorem append_of_cut? {separator text before after : List α} (h : cut? separator text = some (before, after)) :
    text = before ++ separator ++ after := by
  induction text generalizing before with
  | nil =>
      rw [cut?] at h
      split at h
      · next hsep =>
          cases h
          rw [hsep]
          rfl
      · cases h
  | cons c rest ih =>
      rw [cut?] at h
      split at h
      · next hprefix =>
          cases h
          obtain ⟨tail, htail⟩ := hprefix
          rw [← htail, List.drop_left, List.nil_append]
      · obtain ⟨⟨before', after'⟩, hcut, heq⟩ := Option.map_eq_some_iff.mp h
        cases heq
        rw [ih hcut, List.cons_append, List.cons_append]

/-- A separator is found where a text without its first character ends. -/
theorem cut?_append {separator before : List α} {c : α} (hhead : separator.head? = some c) (h : c ∉ before)
    (after : List α) : cut? separator (before ++ separator ++ after) = some (before, after) := by
  induction before with
  | nil =>
      cases separator with
      | nil => cases hhead
      | cons d separator =>
          rw [List.nil_append, List.cons_append, cut?, if_pos ⟨after, rfl⟩, ← List.cons_append, List.drop_left]
  | cons d before ih =>
      obtain ⟨hne, hrest⟩ := not_or.mp (List.mem_cons.not.mp h)
      have hprefix : ¬separator <+: d :: (before ++ separator ++ after) := by
        rintro ⟨tail, htail⟩
        cases separator with
        | nil => cases hhead
        | cons e separator =>
            cases hhead
            exact hne (List.cons.inj htail).1
      rw [List.cons_append, List.cons_append, cut?, if_neg hprefix, ih hrest]
      rfl

end Cut

/-! ## Paths -/

def slash : CodePoint := 47

def dot : CodePoint := 46

/-- A path: what it starts at, which is empty for a relative path, and its components. -/
structure PurePosixPath where
  root : Text
  tail : List Text
  deriving DecidableEq

namespace PurePosixPath

/-- `posixpath.splitroot`: two slashes at the start are a root of their own. -/
def splitRoot (value : Text) : Text × Text :=
  match value with
  | c :: rest =>
      if c ≠ slash then ([], c :: rest)
      else if rest.head? ≠ some slash ∨ (rest.drop 1).head? = some slash then ([slash], rest)
      else ([slash, slash], rest.drop 1)
  | [] => ([], [])

/-- `PurePosixPath(value)`. -/
def parse (value : Text) : PurePosixPath :=
  let (root, rest) := splitRoot value
  ⟨root, (rest.splitOn slash).filter fun part => part ≠ [] ∧ part ≠ [dot]⟩

/-- `path.parts`. -/
def parts (path : PurePosixPath) : List Text := if path.root = [] then path.tail else path.root :: path.tail

/-- `str(path)`. -/
def str (path : PurePosixPath) : Text :=
  if path.root = [] ∧ path.tail = [] then [dot] else path.root ++ [slash].intercalate path.tail

/-- `path.name`. -/
def name (path : PurePosixPath) : Text := path.tail.getLastD []

/-- `path.stem`: the name up to its last point, unless the point starts or ends it. -/
def stem (path : PurePosixPath) : Text :=
  let extension := (path.name.reverse.takeWhile (· ≠ dot)).reverse
  if extension ≠ [] ∧ extension.length + 1 < path.name.length then
    path.name.take (path.name.length - (extension.length + 1))
  else path.name

/-- `path.is_absolute()`. -/
def isAbsolute (path : PurePosixPath) : Bool := path.root ≠ []

end PurePosixPath

end Py

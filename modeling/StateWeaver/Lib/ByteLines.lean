import Mathlib

/-!
# Lines of bytes

Methods of Python's `bytes`. A line ends with a line feed, a carriage return, or with one after the other.
-/

namespace Py

/-- `content.splitlines(keepends=True)`. -/
def splitLinesKeepEnds : List UInt8 → List (List UInt8)
  | [] => []
  | 13 :: 10 :: rest => [13, 10] :: splitLinesKeepEnds rest
  | b :: rest =>
      if b = 10 ∨ b = 13 then [b] :: splitLinesKeepEnds rest
      else
        match splitLinesKeepEnds rest with
        | [] => [[b]]
        | line :: lines => (b :: line) :: lines

/-- A line without its end. -/
def dropLineEnd (line : List UInt8) : List UInt8 := line.filter fun b => b ≠ 10 ∧ b ≠ 13

/-- `content.splitlines()`. -/
def splitLines (content : List UInt8) : List (List UInt8) := (splitLinesKeepEnds content).map dropLineEnd

/-- A blank among bytes. -/
def isByteSpace (b : UInt8) : Bool := b = 32 ∨ 9 ≤ b ∧ b ≤ 13

/-- `content.lstrip()`. -/
def lstripBytes (content : List UInt8) : List UInt8 := content.dropWhile isByteSpace

/-- `content.strip()`. -/
def stripBytes (content : List UInt8) : List UInt8 := ((lstripBytes content).reverse.dropWhile isByteSpace).reverse

theorem flatten_splitLinesKeepEnds (content : List UInt8) : (splitLinesKeepEnds content).flatten = content := by
  fun_induction splitLinesKeepEnds content with
  | case1 => rfl
  | case2 rest ih => rw [List.flatten_cons, ih]; rfl
  | case3 b rest hne hend ih => rw [List.flatten_cons, ih]; rfl
  | case4 b rest hne hend hnil ih => rw [← ih, hnil]; rfl
  | case5 b rest hne hend line lines hcons ih => rw [List.flatten_cons, List.cons_append, ← ih, hcons]; rfl

theorem splitLinesKeepEnds_append {body : List UInt8} (h : ∀ b ∈ body, b ≠ 10 ∧ b ≠ 13) (rest : List UInt8) :
    splitLinesKeepEnds (body ++ 10 :: rest) = (body ++ [10]) :: splitLinesKeepEnds rest := by
  induction body with
  | nil =>
      have hne : ∀ rest', (10 : UInt8) = 13 → rest = 10 :: rest' → False := fun _ heq _ => absurd heq (by decide)
      rw [List.nil_append, List.nil_append, splitLinesKeepEnds.eq_3 _ _ hne, if_pos (.inl rfl)]
  | cons b body ih =>
      obtain ⟨hb, hbody⟩ := List.forall_mem_cons.mp h
      have hne : ∀ rest', b = 13 → body ++ 10 :: rest = 10 :: rest' → False := fun _ heq _ => hb.2 heq
      rw [List.cons_append, splitLinesKeepEnds.eq_3 _ _ hne, if_neg (not_or.mpr hb), ih hbody]
      rfl

/-- The lines of a text are found again. -/
theorem splitLinesKeepEnds_flatten {lines : List (List UInt8)}
    (h : ∀ line ∈ lines, ∃ body, line = body ++ [10] ∧ ∀ b ∈ body, b ≠ 10 ∧ b ≠ 13) :
    splitLinesKeepEnds lines.flatten = lines := by
  induction lines with
  | nil => rfl
  | cons line lines ih =>
      obtain ⟨⟨body, rfl, hbody⟩, hlines⟩ := List.forall_mem_cons.mp h
      rw [List.flatten_cons, List.append_assoc, List.singleton_append, splitLinesKeepEnds_append hbody, ih hlines]

end Py

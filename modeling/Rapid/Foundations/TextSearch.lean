import Mathlib.Data.List.DropRight

/-!
# TextSearch — lines and first occurrences

A text is a list of characters. `afterFirst` is what follows the first occurrence of a pattern, `lines`
are the lines of a text, without their ends; a last line need not be ended.

Searching is decided step by step: where the pattern cannot start, the search goes on behind.
-/

namespace Foundations

variable {pattern text more line : List Char}

/-! ## First occurrences -/

def afterFirst (pattern : List Char) : List Char → Option (List Char)
  | [] => if pattern = [] then some [] else none
  | c :: text =>
      if pattern.isPrefixOf (c :: text) then some ((c :: text).drop pattern.length)
      else afterFirst pattern text

theorem afterFirst_of_append (pattern rest : List Char) :
    afterFirst pattern (pattern ++ rest) = some rest := by
  have hprefix : pattern.isPrefixOf (pattern ++ rest) = true :=
    List.isPrefixOf_iff_prefix.2 (List.prefix_append pattern rest)
  cases htext : pattern ++ rest with
  | nil =>
      rcases List.append_eq_nil_iff.1 htext with ⟨rfl, rfl⟩
      rfl
  | cons c text =>
      rw [htext] at hprefix
      rw [afterFirst, if_pos hprefix, ← htext, List.drop_left]

/-- The pattern starts with another character. -/
theorem afterFirst_skip {q : Char} (hq : pattern.head? = some q) {before : List Char}
    (hbefore : ∀ c ∈ before, c ≠ q) (text : List Char) :
    afterFirst pattern (before ++ text) = afterFirst pattern text := by
  induction before with
  | nil => rfl
  | cons c before ih =>
      have hrest := ih fun d hd => hbefore d (List.mem_cons_of_mem _ hd)
      have hne : c ≠ q := hbefore c List.mem_cons_self
      have hnot : ¬ pattern.isPrefixOf (c :: (before ++ text)) = true := by
        cases pattern with
        | nil => cases hq
        | cons d pattern =>
            cases hq
            simp [List.isPrefixOf, Ne.symm hne]
      rw [List.cons_append, afterFirst, if_neg hnot, hrest]

/-- The pattern goes on with another character. -/
theorem afterFirst_next {q a : Char} {p : List Char} (h : text.head? ≠ some a) :
    afterFirst (q :: a :: p) (q :: text) = afterFirst (q :: a :: p) text := by
  have hnot : ¬ (q :: a :: p).isPrefixOf (q :: text) = true := by
    cases text with
    | nil => simp [List.isPrefixOf]
    | cons c text =>
        have hne : a ≠ c := fun heq => h (congrArg some heq.symm)
        simp [List.isPrefixOf, hne]
  rw [afterFirst, if_neg hnot]

/-! ## Lines -/

/-- The end of a line is a line feed, or a carriage return and a line feed; `line` is reversed. -/
def endLine (line : List Char) : List Char :=
  match line with
  | '\r' :: line => line.reverse
  | line => line.reverse

/-- The lines of a text that goes on with a line begun before. -/
def linesFrom (line : List Char) : List Char → List (List Char)
  | [] => if line = [] then [] else [line.reverse]
  | c :: text => if c = '\n' then endLine line :: linesFrom [] text else linesFrom (c :: line) text

def lines (text : List Char) : List (List Char) :=
  linesFrom [] text

/-- Nothing stands behind the last end of line. -/
def Finished (text : List Char) : Prop :=
  ∀ c ∈ text.getLast?, c = '\n'

theorem finished_nil : Finished [] := by
  intro c hc
  cases hc

theorem finished_append_newline (text : List Char) : Finished (text ++ ['\n']) := by
  intro c hc
  rw [List.getLast?_concat] at hc
  exact (Option.some.inj hc).symm

theorem Finished.append (h : Finished text) (h' : Finished more) : Finished (text ++ more) := by
  cases more with
  | nil => simpa using h
  | cons c more =>
      intro d hd
      rw [List.getLast?_append_of_ne_nil _ (List.cons_ne_nil c more)] at hd
      exact h' d hd

theorem linesFrom_line (hline : '\n' ∉ line) (begun rest : List Char) :
    linesFrom begun (line ++ '\n' :: rest) = endLine (line.reverse ++ begun) :: lines rest := by
  induction line generalizing begun with
  | nil => rfl
  | cons c line ih =>
      have hc : c ≠ '\n' := fun heq => hline (heq ▸ List.mem_cons_self)
      have hrest := ih (fun hmem => hline (List.mem_cons_of_mem _ hmem)) (c :: begun)
      rw [List.cons_append, linesFrom, if_neg hc, hrest]
      simp

/-- A line that does not end in a carriage return is found as it is. -/
theorem lines_line (hline : '\n' ∉ line) (hend : line.getLast? ≠ some '\r') (rest : List Char) :
    lines (line ++ '\n' :: rest) = line :: lines rest := by
  have hfound := linesFrom_line hline [] rest
  have hplain : endLine line.reverse = line := by
    unfold endLine
    split
    · rename_i before hreverse
      rw [List.getLast?_eq_head?_reverse, hreverse] at hend
      exact absurd rfl hend
    · exact List.reverse_reverse line
  rw [List.append_nil, hplain] at hfound
  exact hfound

theorem linesFrom_append (h : Finished text) (more : List Char) (begun : List Char)
    (hbegun : text = [] → begun = []) :
    linesFrom begun (text ++ more) = linesFrom begun text ++ lines more := by
  induction text generalizing begun with
  | nil =>
      rw [hbegun rfl]
      rfl
  | cons c text ih =>
      have hrest : Finished text := by
        intro d hd
        cases text with
        | nil => cases hd
        | cons e text => exact h d (by rw [List.getLast?_cons_cons]; exact hd)
      by_cases hc : c = '\n'
      · simp only [List.cons_append, linesFrom, if_pos hc, ih hrest [] fun _ => rfl]
      · -- The text does not end here, for it would end with this character.
        have hnot : text = [] → c :: begun = [] := by
          rintro rfl
          exact absurd (h c rfl) hc
        simp only [List.cons_append, linesFrom, if_neg hc, ih hrest (c :: begun) hnot]

/-- What is appended to a finished text adds its own lines. -/
theorem lines_append (h : Finished text) (more : List Char) :
    lines (text ++ more) = lines text ++ lines more :=
  linesFrom_append h more [] fun _ => rfl

end Foundations

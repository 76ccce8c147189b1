import Mathlib.Data.List.Basic
import Mathlib.Data.Nat.Init
import JSChip.Spec.Editor

/-!
# Is commenting out undone?

* `commentSelection_true`: uncommenting takes one `//` from the start of every line that has it.
* `comment_undone`: **line comments are undone**, whatever the text.
* `blockComment_undone_iff`: **block comments are undone exactly when the selection is not empty and
  spans lines.** In a single line the end point comes back two columns too far to the right.
* `oneLine_moves`: a selection in a single line.
-/

namespace JSChip.Editor

open Lua

variable {s t l w : Str} {c : Char}

/-! ## Line comments -/

/-- A text with `//` behind every end of a line. -/
def prefixLines (s : Str) : Str := gsub s (.text ['\n']) fun _ => ['\n', '/', '/']

/-- A text without the `//` behind the ends of its lines. -/
def unprefixLines (s : Str) : Str := gsub s (.text ['\n', '/', '/']) fun _ => ['\n']

theorem prefixLines_nil : prefixLines [] = [] := gsub_text_nil (by simp) _

theorem prefixLines_newline : prefixLines ('\n' :: s) = ['\n', '/', '/'] ++ prefixLines s :=
  gsub_text_append (w := ['\n']) (by simp) _

theorem prefixLines_cons (hc : c ≠ '\n') : prefixLines (c :: s) = c :: prefixLines s :=
  gsub_text_cons (by simpa using hc.symm) _

theorem unprefixLines_nil : unprefixLines [] = [] := gsub_text_nil (by simp) _

theorem unprefixLines_comment : unprefixLines ('\n' :: '/' :: '/' :: s) = '\n' :: unprefixLines s :=
  gsub_text_append (w := ['\n', '/', '/']) (by simp) _

theorem unprefixLines_newline (h : ¬ ['/', '/'] <+: s) :
    unprefixLines ('\n' :: s) = '\n' :: unprefixLines s :=
  gsub_text_cons (by simpa using h) _

theorem unprefixLines_cons (hc : c ≠ '\n') : unprefixLines (c :: s) = c :: unprefixLines s :=
  gsub_text_cons (by simp [hc.symm]) _

/-- What the one puts in the other takes out. -/
theorem unprefixLines_prefixLines (s : Str) : unprefixLines (prefixLines s) = s := by
  induction s with
  | nil => rw [prefixLines_nil, unprefixLines_nil]
  | cons c s ih =>
    by_cases hc : c = '\n'
    · subst hc
      rw [prefixLines_newline]
      exact unprefixLines_comment.trans (congrArg _ ih)
    · rw [prefixLines_cons hc, unprefixLines_cons hc, ih]

/-- A line without the comment it starts with. -/
def uncommentLine : Str → Str
  | '/' :: '/' :: rest => rest
  | l => l

theorem unprefixLines_append (hl : '\n' ∉ l) : unprefixLines (l ++ s) = l ++ unprefixLines s := by
  induction l with
  | nil => rfl
  | cons c l ih =>
    rw [List.mem_cons, not_or] at hl
    rw [List.cons_append, unprefixLines_cons (Ne.symm hl.1), ih hl.2, List.cons_append]

theorem uncommentLine_of_not_prefix (h : ¬ ['/', '/'] <+: l) : uncommentLine l = l := by
  unfold uncommentLine
  split
  · simp at h
  · rfl

/-- One line. What follows it is the end of the text or of the line. -/
theorem unprefixLines_line (hl : '\n' ∉ l) (hs : ∀ c ∈ s.head?, c = '\n') :
    unprefixLines ('\n' :: (l ++ s)) = '\n' :: (uncommentLine l ++ unprefixLines s) := by
  by_cases h : ['/', '/'] <+: l
  · obtain ⟨rest, rfl⟩ := h
    have hrest : '\n' ∉ rest := fun hmem => hl (List.mem_append_right _ hmem)
    have hcomment : unprefixLines ('\n' :: (['/', '/'] ++ rest ++ s)) =
        '\n' :: unprefixLines (rest ++ s) := unprefixLines_comment
    rw [hcomment, unprefixLines_append hrest]
    rfl
  · have hno : ¬ ['/', '/'] <+: l ++ s := by
      rintro ⟨u, hu⟩
      match l, s with
      | [], [] => cases hu
      | [], c :: s =>
        cases hu
        simp at hs
      | [c], [] => cases hu
      | [c], d :: s =>
        cases hu
        simp at hs
      | c :: d :: l, s =>
        cases hu
        simp at h
    rw [unprefixLines_newline hno, unprefixLines_append hl, uncommentLine_of_not_prefix h]

/-- **All lines.** -/
theorem unprefixLines_lines (s : Str) :
    unprefixLines ('\n' :: s) = '\n' :: ['\n'].intercalate ((s.splitOn '\n').map uncommentLine) := by
  induction hn : s.length using Nat.strong_induction_on generalizing s with
  | _ n ih =>
    by_cases hmem : '\n' ∈ s
    · obtain ⟨l, rest, rfl, hl⟩ := List.eq_append_cons_of_mem hmem
      have hlt : rest.length < n := by
        rw [← hn, List.length_append, List.length_cons]
        omega
      have hne : (rest.splitOn '\n').map uncommentLine ≠ [] := by simp
      rw [unprefixLines_line hl (by simp), ih _ hlt rest rfl,
        List.splitOn_append_cons_self_of_not_mem hl, List.map_cons,
        List.intercalate_cons_of_ne_nil hne]
      simp
    · have hline := unprefixLines_line (s := []) hmem (by simp)
      rw [List.append_nil, unprefixLines_nil, List.append_nil] at hline
      rw [hline, List.splitOn_eq_singleton hmem, List.map_singleton, List.intercalate_singleton]

/-- **Line comments are undone**, and uncommenting is what it should be on any text. -/
theorem comment_undone :
    (∀ s, commentSelection true (commentSelection false s) = s) ∧
      ∀ s, commentSelection true s = ['\n'].intercalate ((s.splitOn '\n').map uncommentLine) := by
  constructor
  · intro s
    have htext : unprefixLines ('\n' :: '/' :: '/' :: prefixLines s) = '\n' :: s := by
      rw [unprefixLines_comment, unprefixLines_prefixLines]
    exact congrArg (List.drop 1) htext
  · intro s
    exact congrArg (List.drop 1) (unprefixLines_lines s)

/-! ## Block comments -/

/-- A text in a block comment. -/
def wrap (s : Str) : Str := ['/', '*'] ++ s ++ ['*', '/']

/-- The first place is not behind the second. -/
def InOrder (a b : Position) : Prop := a.row < b.row ∨ a.row = b.row ∧ a.column ≤ b.column

theorem makeSelection_inOrder {a b : Position} (h : InOrder a b) : makeSelection (a, b) = (a, b) :=
  if_pos h

/-- The end points of a selection, in order. -/
theorem makeSelection_cases (selection : Position × Position) :
    makeSelection selection = selection ∧ InOrder selection.1 selection.2 ∨
      makeSelection selection = selection.swap ∧ InOrder selection.2 selection.1 := by
  obtain ⟨a, b⟩ := selection
  by_cases h : InOrder a b
  · exact Or.inl ⟨if_pos h, h⟩
  · refine Or.inr ⟨if_neg h, ?_⟩
    unfold InOrder at h ⊢
    dsimp only
    omega

/-- The end points of a selection whose caret is moved to the right are still in order. -/
theorem makeSelection_right {selection : Position × Position} {start caret : Position} {k : ℤ}
    (h : makeSelection selection = (start, caret)) (hk : 0 ≤ k) :
    makeSelection (start, ⟨caret.row, caret.column + k⟩) = (start, ⟨caret.row, caret.column + k⟩) := by
  have hle : InOrder start caret := by
    rcases makeSelection_cases selection with ⟨heq, hle⟩ | ⟨heq, hle⟩
    all_goals
      rw [heq] at h
      cases h
      exact hle
  refine makeSelection_inOrder ?_
  unfold InOrder at hle ⊢
  dsimp only
  omega

theorem find_wrap_start (s : Str) : find (wrap s) commentStart = true := by
  simp [find, commentStart, Pattern.matchAt, wrap, literal, matchItems]

theorem find_wrap_end (s : Str) : find (wrap s) commentEnd = true := by
  refine find_append rfl ?_
  simp [Pattern.matchAt, commentEnd, literal, matchItems]

/-- The text of a block comment is what its pattern captures, unless there is none. -/
theorem gsub_wrap (hs : s ≠ []) : gsub (wrap s) blockComment commented = s := by
  obtain ⟨c, u, rfl⟩ := List.exists_cons_of_ne_nil hs
  have hend : maxExpand (fun _ => true) (matchItems true (literal ['*', '/'])) ['*', '/'] =
      some ([], [['*'], ['/']], []) := by
    simp [maxExpand, literal, matchItems]
  have hall := maxExpand_append (u := u) (fun _ _ => rfl) hend
  have h := @matchItems_literal (.plus (fun _ => true) :: literal ['*', '/']) true
    (c :: u ++ ['*', '/']) ['/', '*']
  rw [List.append_nil] at hall
  simp [matchItems, hall] at h
  simp [gsub, blockComment, Pattern.matchAt, wrap, h, commented]

theorem gsub_wrap_nil : gsub (wrap []) blockComment commented = wrap [] := by
  simp [gsub, blockComment, Pattern.matchAt, wrap, literal, matchItems, maxExpand]

/-- What uncommenting makes of a commented selection. -/
theorem blockComment_twice (s : Str) {selection : Position × Position} {start caret : Position}
    (h : makeSelection selection = (start, caret)) :
    blockCommentSelection true (blockCommentSelection false s selection).1
        (blockCommentSelection false s selection).2 =
      (if s = [] then wrap [] else s, start,
        ⟨caret.row, caret.column + if caret.row = start.row then 2 else 0⟩) := by
  have hk : (0 : ℤ) ≤ if caret.row = start.row then 4 else 2 := by split <;> omega
  have hcommented : blockCommentSelection false s selection =
      (wrap s, start, ⟨caret.row, caret.column + if caret.row = start.row then 4 else 2⟩) := by
    rw [blockCommentSelection, h]
    rfl
  have htext : gsub (wrap s) blockComment commented = if s = [] then wrap [] else s := by
    by_cases hs : s = []
    · rw [if_pos hs, hs, gsub_wrap_nil]
    · rw [if_neg hs, gsub_wrap hs]
  have hcolumn : (caret.column + if caret.row = start.row then 4 else 2) - 2 =
      caret.column + if caret.row = start.row then 2 else 0 := by split <;> omega
  rw [hcommented, blockCommentSelection, makeSelection_right h hk]
  simp only [find_wrap_start, find_wrap_end, Bool.and_self, if_true, htext, hcolumn]

/-- **When block comments are undone.** -/
theorem blockComment_undone_iff (s : Str) (selection : Position × Position) :
    blockCommentSelection true (blockCommentSelection false s selection).1
        (blockCommentSelection false s selection).2 = (s, makeSelection selection) ↔
      s ≠ [] ∧ selection.1.row ≠ selection.2.row := by
  obtain ⟨⟨start, caret⟩, h⟩ : ∃ ends, makeSelection selection = ends := ⟨_, rfl⟩
  have hrows : caret.row = start.row ↔ selection.1.row = selection.2.row := by
    rcases makeSelection_cases selection with ⟨heq, -⟩ | ⟨heq, -⟩
    · rw [heq] at h
      rw [h]
      exact eq_comm
    · rw [heq] at h
      rw [← congrArg (fun p => p.1.row) h, ← congrArg (fun p => p.2.row) h]
      rfl
  rw [blockComment_twice s h, h]
  by_cases hs : s = []
  · simp [hs, wrap]
  by_cases hrow : selection.1.row = selection.2.row
  · have hcolumn : (⟨caret.row, caret.column + 2⟩ : Position) ≠ caret := by
      intro heq
      have hcolumns : caret.column + 2 = caret.column := congrArg Position.column heq
      omega
    simp [hs, hrow, hrows, hcolumn]
  · simp [hs, hrow, hrows]

/-- A selection from column 1 to column 4 of a row. -/
def oneLine : Position × Position := (⟨1, 1⟩, ⟨1, 4⟩)

/-- **In one line the end point moves**: four columns to the right, and two back. -/
theorem oneLine_moves :
    blockCommentSelection true (blockCommentSelection false ['a', 'b', 'c'] oneLine).1
        (blockCommentSelection false ['a', 'b', 'c'] oneLine).2 =
      (['a', 'b', 'c'], ⟨1, 1⟩, ⟨1, 6⟩) ∧
    blockCommentSelection true (blockCommentSelection false ['a', 'b', 'c'] oneLine).1
        (blockCommentSelection false ['a', 'b', 'c'] oneLine).2 ≠
      (['a', 'b', 'c'], makeSelection oneLine) := by
  have htwice : blockCommentSelection true (blockCommentSelection false ['a', 'b', 'c'] oneLine).1
      (blockCommentSelection false ['a', 'b', 'c'] oneLine).2 = (['a', 'b', 'c'], ⟨1, 1⟩, ⟨1, 6⟩) :=
    blockComment_twice ['a', 'b', 'c'] rfl
  refine ⟨htwice, ?_⟩
  rw [htwice]
  decide

end JSChip.Editor

import JSChip.Proof.Highlight

/-!
# The comment state of the first visible row

`resetTokenizer` counts the pairs of slashes and stars in the rows above. It knows no strings, and
it pairs from the left, so that it reads `**/` as `**` and a slash.

* `alike`: no pair of a row is read otherwise than by the tokenizer, or it does not matter.
* `scan_eq_endsInComment`: on such a row the two agree.
* `scroll_agrees`: **on rows that are all such, the state is the one that colouring them leaves**.
-/

namespace JSChip.Editor

open Machine Lua

variable {n k : ℕ} {b : Bool} {m : Mode} {c d q : Char} {s row : Str} {rows : List Str}

/-! ## The scan of a row -/

/-- `/` or `*`. -/
def isMark (c : Char) : Bool := c == '/' || c == '*'

theorem mark_cases (h : isMark c = true) : c = '/' ∨ c = '*' := by
  simpa [isMark] using h

/-- Whether a row of the scan ends in a comment. -/
def scan (b : Bool) (row : Str) : Bool := scanMatches b (gmatch row delimiters)

theorem delimiters_some (hc : isMark c = true) (hd : isMark d = true) :
    delimiters.matchAt (c :: d :: s) = some ([[c], [d]], s) := by
  unfold isMark at hc hd
  simp [delimiters, Pattern.matchAt, matchItems, hc, hd]

theorem delimiters_none (h : ¬ (isMark c = true ∧ isMark d = true)) :
    delimiters.matchAt (c :: d :: s) = none := by
  unfold isMark at h
  simp only [delimiters, Pattern.matchAt, matchItems]
  split
  · rename_i hc
    rw [if_neg fun hd => h ⟨hc, hd⟩]
    rfl
  · rfl

theorem scan_nil : scan b [] = b := by
  unfold scan
  rw [gmatch_nil rfl]
  rfl

theorem scan_singleton : scan b [c] = b := by
  have hnone : delimiters.matchAt [c] = none := by
    simp [delimiters, Pattern.matchAt, matchItems]
  unfold scan
  rw [gmatch_none hnone]
  exact scan_nil

theorem scan_skip (h : ¬ (isMark c = true ∧ isMark d = true)) :
    scan b (c :: d :: s) = scan b (d :: s) := by
  unfold scan
  rw [gmatch_none (delimiters_none h)]

theorem scan_pair (hc : isMark c = true) (hd : isMark d = true) :
    scan b (c :: d :: s) = scanMatches b ([c, d] :: gmatch s delimiters) := by
  have hlen : s.length < (c :: d :: s).length := by
    simp only [List.length_cons]
    omega
  unfold scan
  rw [gmatch_some (delimiters_some hc hd) hlen]
  rfl

theorem scan_line : scan b ('/' :: '/' :: s) = b := scan_pair rfl rfl

theorem scan_open : scan b ('/' :: '*' :: s) = scan true s := scan_pair rfl rfl

theorem scan_close : scan b ('*' :: '/' :: s) = scan false s := scan_pair rfl rfl

theorem scan_stars : scan b ('*' :: '*' :: s) = scan b s := scan_pair rfl rfl

/-! ## Rows that are read alike -/

/-- **The scan reads the row as the tokenizer does**, from a mode on: in code no `*/` is followed by
a third mark, in a string there is no `/*`, in a comment no `/*` or `**` is followed by a slash. A
`//` that is not a line comment ends the scan, so that the rest of the row decides. -/
def alike : Mode → Str → Bool
  | m, c :: d :: s =>
    if isMark c && isMark d then
      match m with
      | .code =>
        if c = '/' then d == '/' || alike (.comment true) s
        else (d == '*' || !s.head?.any isMark) && alike .code s
      | .string q _ =>
        if c = '/' then d == '/' && !endsInComment (.string q false) s
        else alike (.string q false) s
      | .comment here =>
        if c = '/' ∧ d = '/' then endsInComment (.comment here) s
        else if d = '/' then alike (if here then .behind else .code) s
        else s.head? != some '/' && alike (.comment here) s
      | .behind =>
        -- the tokenizer takes the character behind a comment with it
        if c = '/' then d == '/' && !endsInComment .code ('/' :: s)
        else (d == '*' || !s.head?.any isMark) && alike .code s
    else alike (m.next c) (d :: s)
  | _, _ => true

/-- The delimiter of a string is a quote. -/
def Mode.Quoted : Mode → Prop
  | .string q _ => isQuote q = true
  | _ => True

theorem Mode.Quoted.next (h : m.Quoted) (c : Char) : (m.next c).Quoted := by
  cases m with
  | code =>
    have hcode : Mode.code.next c = if isQuote c then .string c false else .code := rfl
    rw [hcode]
    split
    · rename_i hquote
      exact hquote
    · trivial
  | string q escaped =>
    cases escaped with
    | true => exact h
    | false =>
      have hstring : (Mode.string q false).next c =
          if c = q then .code else .string q (c == '\\') := rfl
      rw [hstring]
      split
      · trivial
      · exact h
  | comment here => trivial
  | behind => trivial

/-- A character that is read alone opens and closes no comment. -/
theorem Mode.next_isComment : (m.next c).isComment = m.isComment := by
  unfold Mode.next
  split
  · split <;> rfl
  · rfl
  · split <;> rfl
  · rfl
  · rfl

/-- What the rows behind a pair of marks have to show. -/
def Agrees (s : Str) : Prop :=
  ∀ m : Mode, m.Quoted → alike m s = true → scan m.isComment s = endsInComment m s

theorem isQuote_of_mark (h : isMark c = true) : isQuote c = false := by
  rcases mark_cases h with rfl | rfl <;> rfl

/-- A character in front of one that is no mark. -/
theorem endsInComment_single (h : ∀ d ∈ s.head?, isMark c = true → isMark d = false) :
    endsInComment m (c :: s) = endsInComment (m.next c) s := by
  refine endsInComment_cons fun d hd => ?_
  have hmarks := h d hd
  unfold Mode.pair
  split
  · exact absurd (hmarks rfl) (by decide)
  · exact absurd (hmarks rfl) (by decide)
  · exact absurd (hmarks rfl) (by decide)
  · rfl

/-! Two marks, in each mode. -/

theorem scan_code (ih : Agrees s) (hc : isMark c = true) (hd : isMark d = true)
    (h : alike .code (c :: d :: s) = true) :
    scan false (c :: d :: s) = endsInComment .code (c :: d :: s) := by
  unfold alike at h
  rw [hc, hd] at h
  rcases mark_cases hc with rfl | rfl
  · rcases mark_cases hd with rfl | rfl
    · rw [scan_line, endsInComment_lineComment]
    · have halike : alike (.comment true) s = true := by simpa using h
      rw [scan_open, endsInComment_pair rfl]
      exact ih (.comment true) trivial halike
  · have hstar : endsInComment .code ('*' :: d :: s) = endsInComment .code (d :: s) :=
      endsInComment_code_cons (by decide) rfl
    rcases mark_cases hd with rfl | rfl
    · have hrest : (∀ d ∈ s.head?, isMark d = false) ∧ alike .code s = true := by
        cases s <;> simpa using h
      have hslash : endsInComment .code ('/' :: s) = endsInComment .code s :=
        endsInComment_single fun d hd _ => hrest.1 d hd
      rw [scan_close, hstar, hslash]
      exact ih .code trivial hrest.2
    · have halike : alike .code s = true := by simpa using h
      rw [scan_stars, hstar, endsInComment_code_cons (by decide) rfl]
      exact ih .code trivial halike

theorem next_string {escaped : Bool} (hq : isQuote q = true) (hc : isMark c = true) :
    (Mode.string q escaped).next c = .string q false := by
  have hne : c ≠ q := by
    rintro rfl
    rw [isQuote_of_mark hc] at hq
    cases hq
  cases escaped with
  | true => rfl
  | false =>
    have hstring : (Mode.string q false).next c =
        if c = q then .code else .string q (c == '\\') := rfl
    rw [hstring, if_neg hne]
    rcases mark_cases hc with rfl | rfl <;> rfl

theorem scan_string {escaped : Bool} (ih : Agrees s) (hq : isQuote q = true)
    (hc : isMark c = true) (hd : isMark d = true)
    (h : alike (.string q escaped) (c :: d :: s) = true) :
    scan false (c :: d :: s) = endsInComment (.string q escaped) (c :: d :: s) := by
  unfold alike at h
  rw [hc, hd] at h
  have hread : endsInComment (.string q escaped) (c :: d :: s) =
      endsInComment (.string q false) s := by
    rw [endsInComment_cons fun _ _ => pair_string, next_string hq hc,
      endsInComment_cons fun _ _ => pair_string, next_string hq hd]
  rw [hread]
  rcases mark_cases hc with rfl | rfl
  · rcases mark_cases hd with rfl | rfl
    · have hends : endsInComment (.string q false) s = false := by simpa using h
      rw [scan_line, hends]
    · exact absurd h (by simp)
  · have halike : alike (.string q false) s = true := by simpa using h
    rcases mark_cases hd with rfl | rfl
    · rw [scan_close]
      exact ih (.string q false) hq halike
    · rw [scan_stars]
      exact ih (.string q false) hq halike

theorem scan_comment {here : Bool} (ih : Agrees s) (hc : isMark c = true) (hd : isMark d = true)
    (h : alike (.comment here) (c :: d :: s) = true) :
    scan true (c :: d :: s) = endsInComment (.comment here) (c :: d :: s) := by
  unfold alike at h
  rw [hc, hd] at h
  -- a slash ends a comment only behind a star
  have hslash : ∀ u, endsInComment (.comment here) ('/' :: u) = endsInComment (.comment here) u :=
    fun u => endsInComment_cons fun _ _ => rfl
  have hstar : (∀ d ∈ s.head?, d ≠ '/') →
      endsInComment (.comment here) ('*' :: s) = endsInComment (.comment here) s := by
    intro hne
    refine endsInComment_cons fun d hd => ?_
    unfold Mode.pair
    split
    · rename_i hmode
      cases hmode
    · rename_i hmode
      cases hmode
    · exact absurd rfl (hne '/' hd)
    · rfl
  rcases mark_cases hd with rfl | rfl
  · rcases mark_cases hc with rfl | rfl
    · have hends : endsInComment (.comment here) s = true := by simpa using h
      rw [scan_line, hslash, hslash, hends]
    · have halike : alike (if here then .behind else .code) s = true := by simpa using h
      rw [scan_close, endsInComment_pair rfl]
      cases here with
      | true => exact ih .behind trivial halike
      | false => exact ih .code trivial halike
  · have hrest : (∀ d ∈ s.head?, d ≠ '/') ∧ alike (.comment here) s = true := by
      cases s <;> simpa using h
    have hagrees : scan true s = endsInComment (.comment here) s := ih (.comment here) trivial hrest.2
    rcases mark_cases hc with rfl | rfl
    · rw [scan_open, hslash, hstar hrest.1, hagrees]
    · have htwo : endsInComment (.comment here) ('*' :: '*' :: s) =
          endsInComment (.comment here) ('*' :: s) := endsInComment_cons (by simp [Mode.pair])
      rw [scan_stars, htwo, hstar hrest.1, hagrees]

theorem scan_behind (ih : Agrees s) (hc : isMark c = true) (hd : isMark d = true)
    (h : alike .behind (c :: d :: s) = true) :
    scan false (c :: d :: s) = endsInComment .behind (c :: d :: s) := by
  have hread : endsInComment .behind (c :: d :: s) = endsInComment .code (d :: s) :=
    endsInComment_cons fun _ _ => rfl
  rw [hread]
  rcases mark_cases hc with rfl | rfl
  · unfold alike at h
    rw [hc, hd] at h
    rcases mark_cases hd with rfl | rfl
    · have hends : endsInComment .code ('/' :: s) = false := by simpa using h
      rw [scan_line, hends]
    · exact absurd h (by simp)
  · -- behind a comment a star reads as it does in code
    have hstar : endsInComment .code ('*' :: d :: s) = endsInComment .code (d :: s) :=
      endsInComment_code_cons (by decide) rfl
    have halike : alike .code ('*' :: d :: s) = true := by
      unfold alike at h ⊢
      exact h
    rw [← hstar]
    exact scan_code ih hc hd halike

/-- **On a row that is read alike the scan and the tokenizer agree.** -/
theorem scan_eq_endsInComment : ∀ {row : Str}, Agrees row := by
  intro row
  induction h : row.length using Nat.strong_induction_on generalizing row with
  | _ l ih =>
    intro m hm halike
    match row, h with
    | [], _ => exact scan_nil
    | [c], _ =>
      rw [scan_singleton]
      exact Mode.next_isComment.symm
    | c :: d :: s, h =>
      rw [List.length_cons, List.length_cons] at h
      by_cases hmarks : isMark c = true ∧ isMark d = true
      · obtain ⟨hc, hd⟩ := hmarks
        have ihs : Agrees s := ih s.length (by omega) rfl
        cases m with
        | code => exact scan_code ihs hc hd halike
        | string q escaped => exact scan_string ihs hm hc hd halike
        | comment here => exact scan_comment ihs hc hd halike
        | behind => exact scan_behind ihs hc hd halike
      · have ihs : Agrees (d :: s) := ih (s.length + 1) (by omega) rfl
        have hsingle : ∀ e ∈ (d :: s).head?, isMark c = true → isMark e = false := by
          intro e he hc
          cases he
          simpa [hc] using hmarks
        have hrest : alike (m.next c) (d :: s) = true := by
          unfold alike at halike
          rwa [if_neg (by simpa using hmarks)] at halike
        rw [scan_skip hmarks, endsInComment_single hsingle, ← ihs _ (hm.next c) hrest,
          Mode.next_isComment]

/-! ## The rows above -/

/-- The rows are coloured in order. -/
def colorRows : List Str → EditorM Unit
  | [] => pure ()
  | row :: rows => do
    let _ ← syntaxColorLine row
    colorRows rows

/-- The comment state behind the rows. -/
def readRows (b : Bool) (rows : List Str) : Bool :=
  rows.foldl (fun b row => endsInComment (startMode b) row) b

/-- **What colouring the rows leaves**, by induction on the rows. -/
theorem colorRows_returns : ∀ {rows : List Str} {u : Tokenizer} {E : Timeout → Prop},
    (∀ row ∈ rows, row.length < n) →
    wp (colorRows rows) n (fun _ t => t.blockcomment = readRows u.blockcomment rows) E u := by
  intro rows
  induction rows with
  | nil =>
    intro u E _
    rfl
  | cons row rows ih =>
    intro u E hn
    rw [List.forall_mem_cons] at hn
    rw [colorRows, wp_bind]
    refine wp_mono ?_ (fun _ h => h) (syntaxColorLine_returns row u hn.1)
    intro cols t h
    have hrest := @ih t E hn.2
    rw [h.comment] at hrest
    exact hrest

/-- **Scrolling agrees with colouring**: the state with which row `k` is coloured when it is the
first to be seen is the one that colouring the rows above leaves, from a cleared one. -/
def ScrollAgrees (rows : List Str) (k : ℕ) : Prop :=
  ∃ bound, ∀ rounds, bound ≤ rounds →
    wp (colorRows (rows.take (k - 1))) rounds
      (fun _ t => t.blockcomment = resetTokenizer rows k) (fun _ => False) ⟨[], [], false⟩

theorem scrollAgrees_iff_read :
    ScrollAgrees rows k ↔ readRows false (rows.take (k - 1)) = resetTokenizer rows k := by
  have hbound : ∀ rounds, (rows.take (k - 1)).flatten.length + 1 ≤ rounds →
      ∀ row ∈ rows.take (k - 1), row.length < rounds := by
    intro rounds hle row hrow
    have := (List.sublist_flatten_of_mem hrow).length_le
    omega
  have hleaves : ∀ rounds, (rows.take (k - 1)).flatten.length + 1 ≤ rounds →
      (wp (colorRows (rows.take (k - 1))) rounds (fun _ t => t.blockcomment = resetTokenizer rows k)
        (fun _ => False) ⟨[], [], false⟩ ↔
      readRows false (rows.take (k - 1)) = resetTokenizer rows k) := by
    intro rounds hle
    refine wp_iff_of (colorRows_returns (hbound rounds hle)) fun _ t ht => ?_
    rw [ht]
  constructor
  · rintro ⟨bound, h⟩
    have hmax := h (max bound ((rows.take (k - 1)).flatten.length + 1)) (Nat.le_max_left _ _)
    exact (hleaves _ (Nat.le_max_right _ _)).1 hmax
  · intro h
    exact ⟨_, fun rounds hle => (hleaves rounds hle).2 h⟩

/-- Each row is read alike, from the mode it starts in. -/
def RowsAlike (b : Bool) : List Str → Prop
  | [] => True
  | row :: rows => alike (startMode b) row = true ∧ RowsAlike (endsInComment (startMode b) row) rows

theorem startMode_isComment : (startMode b).isComment = b := by
  cases b <;> rfl

theorem startMode_quoted : (startMode b).Quoted := by
  cases b <;> trivial

/-- **The scan of the rows**, by induction: a row is scanned and read from the same state. -/
theorem foldl_scan : ∀ {rows : List Str} {b : Bool}, RowsAlike b rows →
    rows.foldl scan b = readRows b rows := by
  intro rows
  induction rows with
  | nil =>
    intro b _
    rfl
  | cons row rows ih =>
    intro b h
    have hrow : scan b row = endsInComment (startMode b) row := by
      have hagrees := scan_eq_endsInComment (startMode b) startMode_quoted h.1
      rwa [startMode_isComment] at hagrees
    rw [List.foldl_cons, hrow]
    exact ih h.2

/-- **When scrolling agrees with colouring.** -/
theorem scroll_agrees (rows : List Str) (k : ℕ) (h : RowsAlike false (rows.take (k - 1))) :
    ScrollAgrees rows k :=
  scrollAgrees_iff_read.2 (foldl_scan h).symm

/-- A comment over two rows, with a string behind it. -/
def twoRows : List Str :=
  [['/', '*', ' ', 'a'], ['*', '/', ' ', '"', '/', '/', '"'], ['b']]

theorem twoRows_agree : RowsAlike false (twoRows.take (3 - 1)) ∧ ScrollAgrees twoRows 3 :=
  ⟨⟨by decide, by decide, trivial⟩, scroll_agrees twoRows 3 ⟨by decide, by decide, trivial⟩⟩

/-- A comment that ends in two stars and a slash. -/
def starred : List Str := [['/', '*', '*', '*', '/'], ['a']]

/-- **Two stars and a slash**: the scan takes the two stars together and finds no end. -/
theorem starred_disagrees : ¬ ∀ (rows : List Str) (k : ℕ), 1 ≤ k → k ≤ rows.length →
    ScrollAgrees rows k := by
  intro hall
  have hread := scrollAgrees_iff_read.1 (hall starred 2 (by decide) (by decide))
  have hscan : resetTokenizer starred 2 = true := by
    show scan false ['/', '*', '*', '*', '/'] = true
    rw [scan_open, scan_stars, scan_singleton]
  rw [hscan] at hread
  exact absurd hread (by decide)

end JSChip.Editor

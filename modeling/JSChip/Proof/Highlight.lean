import Mathlib.Data.List.TakeWhile
import JSChip.Spec.Editor

/-!
# How a line is coloured

* `endsInComment`: whether a line ends in a block comment, read from left to right.
* `token_spec`: a token takes at least one character, and keeps what the rest of the line will be.
* `syntaxColorLine_returns`: **the loops end, and the segments make up the line** up to the spaces at
  its end. What is left in `blockcomment` is `endsInComment`.
-/

namespace JSChip.Editor

open Machine Lua

variable {n : ℕ} {s t : Tokenizer} {E : Timeout → Prop} {c d q : Char} {u r line : Str}

/-! ## Reading a line -/

/-- Where a character of a line stands. -/
inductive Mode
  | code
  /-- in a string, perhaps behind a backslash -/
  | string (delimiter : Char) (escaped : Bool)
  /-- in a block comment, which perhaps began in this line -/
  | comment (here : Bool)
  /-- directly behind a block comment that began in this line -/
  | behind
deriving DecidableEq, Repr

namespace Mode

def isComment : Mode → Bool
  | comment _ => true
  | _ => false

/-- The mode behind one character. -/
def next : Mode → Char → Mode
  | code, c => if isQuote c then string c false else code
  | string q true, _ => string q false
  | string q false, c => if c = q then code else string q (c == '\\')
  | comment here, _ => comment here
  | behind, _ => code

/-- Two characters that are read together: the mode behind them, and `none` where the line ends. -/
def pair : Mode → Char → Char → Option (Option Mode)
  | code, '/', '/' => some none
  | code, '/', '*' => some (some (comment true))
  | comment here, '*', '/' => some (some (if here then behind else code))
  | _, _, _ => none

end Mode

/-- **Whether the line ends in a block comment**, read in a mode. -/
def endsInComment : Mode → Str → Bool
  | m, [] => m.isComment
  | m, [c] => (m.next c).isComment
  | m, c :: d :: s =>
    match m.pair c d with
    | some none => false
    | some (some m') => endsInComment m' s
    | none => endsInComment (m.next c) (d :: s)

/-- A character that is read alone. -/
theorem endsInComment_cons {m : Mode} (h : ∀ d ∈ r.head?, m.pair c d = none) :
    endsInComment m (c :: r) = endsInComment (m.next c) r := by
  cases r with
  | nil => simp [endsInComment]
  | cons d r =>
    have hd : m.pair c d = none := h d rfl
    rw [endsInComment, hd]

theorem endsInComment_pair {m m' : Mode} (h : m.pair c d = some (some m')) :
    endsInComment m (c :: d :: r) = endsInComment m' r := by
  rw [endsInComment, h]

theorem endsInComment_lineComment : endsInComment .code ('/' :: '/' :: r) = false := by
  rw [endsInComment]
  rfl

theorem pair_code_of_ne (hc : c ≠ '/') : Mode.code.pair c d = none := by
  unfold Mode.pair
  split <;> simp_all

theorem pair_string {escaped : Bool} : (Mode.string q escaped).pair c d = none := by
  unfold Mode.pair
  split <;> simp_all

/-- A character that is no slash and no quote. -/
theorem endsInComment_code_cons (hc : c ≠ '/') (hq : isQuote c = false) :
    endsInComment .code (c :: r) = endsInComment .code r := by
  rw [endsInComment_cons fun d _ => pair_code_of_ne hc]
  simp [Mode.next, hq]

/-- Characters that are no slashes and no quotes. -/
theorem endsInComment_code_append (h : ∀ c ∈ u, c ≠ '/' ∧ isQuote c = false) :
    endsInComment .code (u ++ r) = endsInComment .code r := by
  induction u with
  | nil => rfl
  | cons c u ih =>
    rw [List.forall_mem_cons] at h
    rw [List.cons_append, endsInComment_code_cons h.1.1 h.1.2, ih h.2]

/-! ## The rules of the tokenizer -/

section Rules

variable {Q : Unit → Tokenizer → Prop}

@[simp] theorem wp_character {Q : Option Char → Tokenizer → Prop} :
    wp character n Q E s ↔ Q s.rest.head? s := Iff.rfl

@[simp] theorem wp_tokendata {Q : Str → Tokenizer → Prop} :
    wp tokendata n Q E s ↔ Q s.tokendata s := Iff.rfl

@[simp] theorem wp_clearTokendata :
    wp clearTokendata n Q E s ↔ Q () { s with tokendata := [] } := Iff.rfl

@[simp] theorem wp_setBlockcomment (b : Bool) :
    wp (setBlockcomment b) n Q E s ↔ Q () { s with blockcomment := b } := Iff.rfl

@[simp] theorem wp_rewind :
    wp (rewind line) n Q E s ↔ Q () { s with rest := line, tokendata := [] } := Iff.rfl

/-- The characters `u` are taken. -/
def Tokenizer.take (s : Tokenizer) (u r : Str) : Tokenizer :=
  { s with tokendata := s.tokendata ++ u, rest := r }

theorem wp_nextCharacter_nil (h : s.rest = []) : wp nextCharacter n Q E s ↔ Q () s := by
  obtain ⟨rest, data, b⟩ := s
  subst h
  rfl

theorem wp_nextCharacter_cons (h : s.rest = c :: r) :
    wp nextCharacter n Q E s ↔ Q () (s.take [c] r) := by
  obtain ⟨rest, data, b⟩ := s
  subst h
  rfl

variable {p : Pattern} {P : Bool → Tokenizer → Prop}

theorem wp_nextPattern_none (h : s.rest = [] ∨ p.matchAt s.rest = none) :
    wp (nextPattern p) n P E s ↔ P false s := by
  unfold nextPattern
  rw [wp_bind, wp_get]
  cases hs : s.rest with
  | nil => rfl
  | cons c r =>
    rw [hs] at h
    have hnone := h.resolve_left (by simp)
    simp [hnone]

theorem wp_nextPattern_some {ts : List Str} (hs : s.rest ≠ [])
    (h : p.matchAt s.rest = some (ts, r)) :
    wp (nextPattern p) n P E s ↔ P true (s.take ts.flatten r) := by
  unfold nextPattern
  have hempty : s.rest.isEmpty = false := by simpa using hs
  rw [wp_bind, wp_get, hempty]
  simp only [Bool.false_eq_true, if_false, h]
  rfl

end Rules

/-! ## Block comments -/

/-- The mode behind a block comment. -/
def afterComment (here : Bool) : Mode := if here then .behind else .code

/-- The first `*/` ends the comment. -/
theorem untilCommentEnd_spec (here : Bool) : ∀ u,
    (untilCommentEnd.matchAt u = none → endsInComment (.comment here) u = true) ∧
      ∀ ts r, untilCommentEnd.matchAt u = some (ts, r) →
        endsInComment (.comment here) u = endsInComment (afterComment here) r := by
  intro u
  induction u with
  | nil => exact ⟨fun _ => rfl, fun ts r h => by cases h⟩
  | cons c u ih =>
    by_cases hend : ∃ v, c = '*' ∧ u = '/' :: v
    · obtain ⟨v, rfl, rfl⟩ := hend
      have hliteral : matchItems false (literal ['*', '/']) ('*' :: '/' :: v) =
          some ([['*'], ['/']], v) := rfl
      have hmatch : untilCommentEnd.matchAt ('*' :: '/' :: v) = some ([[], ['*'], ['/']], v) :=
        matchItems_lazy_some hliteral
      refine ⟨fun h => ?_, fun ts r h => ?_⟩
      · rw [hmatch] at h
        cases h
      · rw [hmatch] at h
        cases h
        exact endsInComment_pair rfl
    · have hliteral : matchItems false (literal ['*', '/']) (c :: u) = none := by
        have hprefix : ¬ ['*', '/'] <+: c :: u := by
          rintro ⟨v, hv⟩
          cases hv
          exact hend ⟨v, rfl, rfl⟩
        have h := @matchItems_literal_none [] false ['*', '/'] _ hprefix
        rwa [List.append_nil] at h
      have hrest : (untilCommentEnd.matchAt (c :: u)).map Prod.snd =
          (untilCommentEnd.matchAt u).map Prod.snd := matchItems_lazy_none rfl hliteral
      have halone : endsInComment (.comment here) (c :: u) = endsInComment (.comment here) u := by
        refine endsInComment_cons fun d hd => ?_
        obtain ⟨v, rfl⟩ := List.head?_eq_some_iff.1 hd
        have hne : ¬ (c = '*' ∧ d = '/') := fun h => hend ⟨v, h.1, by rw [h.2]⟩
        unfold Mode.pair
        split <;> simp_all
      rw [halone]
      cases hu : untilCommentEnd.matchAt u with
      | none =>
        rw [hu] at hrest
        refine ⟨fun _ => ih.1 hu, fun ts r h => ?_⟩
        rw [h] at hrest
        cases hrest
      | some a =>
        obtain ⟨ts', r'⟩ := a
        rw [hu] at hrest
        refine ⟨fun h => ?_, fun ts r h => ?_⟩
        · rw [h] at hrest
          cases hrest
        · rw [h] at hrest
          cases hrest
          exact ih.2 ts' _ hu

/-- From one state to another, characters have been taken. -/
structure Tokenizer.Moves (s t : Tokenizer) : Prop where
  covers : t.tokendata ++ t.rest = s.tokendata ++ s.rest
  le : t.rest.length ≤ s.rest.length

theorem Tokenizer.Moves.refl (s : Tokenizer) : s.Moves s := ⟨rfl, Nat.le_refl _⟩

theorem Tokenizer.Moves.trans {s' : Tokenizer} (h : s.Moves t) (h' : t.Moves s') : s.Moves s' :=
  ⟨h'.covers.trans h.covers, Nat.le_trans h'.le h.le⟩

theorem Tokenizer.moves_take (h : u ++ r = s.rest) : s.Moves (s.take u r) := by
  refine ⟨?_, ?_⟩
  · rw [Tokenizer.take, List.append_assoc, h]
  · rw [← h, List.length_append]
    exact Nat.le_add_left _ _

/-- The rest of a comment: it ends in the line, or takes all of it. -/
theorem finishComment_spec (here : Bool) (hb : s.blockcomment = true) :
    wp finishComment n (fun _ t => s.Moves t ∧
      (t.blockcomment = true → t.rest = []) ∧
      (t.blockcomment || endsInComment (afterComment here) t.rest) =
        endsInComment (.comment here) s.rest) E s := by
  obtain ⟨hnone, hsome⟩ := untilCommentEnd_spec here s.rest
  unfold finishComment
  rw [wp_bind]
  by_cases hs : s.rest = []
  · rw [wp_nextPattern_none (Or.inl hs)]
    simp only [Bool.false_eq_true, if_false, wp_bind]
    rw [wp_nextPattern_none (Or.inl hs)]
    refine ⟨.refl s, fun _ => hs, ?_⟩
    rw [hs, hb]
    rfl
  cases hm : untilCommentEnd.matchAt s.rest with
  | none =>
    have hall : restOfLine.matchAt s.rest = some ([s.rest], []) := matchItems_any
    rw [wp_nextPattern_none (Or.inr hm)]
    simp only [Bool.false_eq_true, if_false, wp_bind]
    rw [wp_nextPattern_some hs hall]
    refine ⟨Tokenizer.moves_take (by simp), fun _ => rfl, ?_⟩
    have htrue : (s.take [s.rest].flatten []).blockcomment = true := hb
    rw [htrue, hnone hm]
    rfl
  | some a =>
    obtain ⟨ts, r⟩ := a
    rw [wp_nextPattern_some hs hm]
    simp only [if_true, wp_setBlockcomment]
    refine ⟨⟨?_, ?_⟩, fun htrue => absurd htrue Bool.false_ne_true, ?_⟩
    · exact (Tokenizer.moves_take (matchItems_covers hm)).covers
    · exact (Tokenizer.moves_take (matchItems_covers hm)).le
    · exact (hsome ts r hm).symm

/-! ## Strings -/

/-- One round over a string, which is left at the delimiter or at the end of the line. -/
theorem stringRound_spec (tokenname : TokenName) (u₀ : Tokenizer) (b : Bool)
    (h : u₀.Moves s) (hblock : s.blockcomment = u₀.blockcomment)
    (hb : endsInComment (.string q false) s.rest = b) :
    wp (stringRound q tokenname) n (RoundEnds
      (fun _ t => u₀.Moves t ∧ t.blockcomment = u₀.blockcomment ∧
        endsInComment (.string q false) t.rest = b)
      (fun _ t => u₀.Moves t ∧ t.blockcomment = u₀.blockcomment ∧
        endsInComment .code t.rest.tail = b)
      (fun _ t => t.rest.length) s.rest.length) E s := by
  unfold stringRound
  rw [wp_bind, wp_character]
  cases hs : s.rest with
  | nil =>
    rw [hs] at hb
    refine ⟨h, hblock, ?_⟩
    rw [hs]
    exact hb
  | cons c r =>
    rw [hs] at hb
    have hnext : endsInComment (.string q false) (c :: r) =
        endsInComment ((Mode.string q false).next c) r := endsInComment_cons fun _ _ => pair_string
    rw [hnext, Mode.next] at hb
    by_cases hc : c = q
    · rw [if_pos hc] at hb
      simp only [List.head?_cons, if_pos hc, wp_pure]
      refine ⟨h, hblock, ?_⟩
      rw [hs]
      exact hb
    rw [if_neg hc] at hb
    simp only [List.head?_cons, if_neg hc]
    by_cases hescape : c = '\\'
    · subst hescape
      rw [if_pos rfl, wp_bind, wp_nextCharacter_cons hs, wp_bind]
      cases r with
      | nil =>
        rw [wp_nextCharacter_nil rfl]
        exact ⟨⟨h.trans (Tokenizer.moves_take hs.symm), hblock, hb⟩, by simp [Tokenizer.take]⟩
      | cons d r =>
        have hd : endsInComment (.string q true) (d :: r) = endsInComment (.string q false) r :=
          endsInComment_cons fun _ _ => pair_string
        have htake : u₀.Moves ((s.take ['\\'] (d :: r)).take [d] r) :=
          (h.trans (Tokenizer.moves_take hs.symm)).trans (Tokenizer.moves_take rfl)
        rw [wp_nextCharacter_cons rfl]
        refine ⟨⟨htake, hblock, hd.symm.trans hb⟩, ?_⟩
        simp only [Tokenizer.take, List.length_cons]
        omega
    · have hne : (c == '\\') = false := by simpa using hescape
      rw [hne] at hb
      simp only [hescape, if_false, wp_bind, wp_pure]
      rw [wp_nextCharacter_cons hs]
      refine ⟨⟨h.trans (Tokenizer.moves_take hs.symm), hblock, hb⟩, ?_⟩
      simp [Tokenizer.take]

/-- A string, from its first quote on. -/
theorem stringToken_spec (hs : s.rest = q :: r) (hq : isQuote q = true) (hn : s.rest.length < n) :
    wp (stringToken q) n (fun _ t => s.Moves t ∧ t.rest.length < s.rest.length ∧
      t.blockcomment = s.blockcomment ∧
      endsInComment .code t.rest = endsInComment .code s.rest) E s := by
  have hquote : endsInComment .code s.rest = endsInComment (.string q false) r := by
    have hne : q ≠ '/' := by
      rintro rfl
      cases hq
    rw [hs, endsInComment_cons fun d _ => pair_code_of_ne hne, Mode.next, if_pos hq]
  have hfirst : s.Moves (s.take [q] r) := Tokenizer.moves_take hs.symm
  have hlt : r.length < s.rest.length := by
    rw [hs]
    exact Nat.lt_succ_self _
  unfold stringToken
  rw [wp_bind, wp_nextCharacter_cons hs, wp_bind, wp_read, wp_bind]
  refine wp_loop (I := fun _ t => (s.take [q] r).Moves t ∧ t.blockcomment = s.blockcomment ∧
      endsInComment (.string q false) t.rest = endsInComment (.string q false) r)
    (fun _ t => t.rest.length) ?_ ⟨.refl _, rfl, rfl⟩ (Nat.lt_trans hlt hn)
  rintro tokenname t ⟨hmoves, hblock, hcomment⟩
  refine wp_mono (fun next t' h => h.mono ?_) (fun _ h => h)
    (stringRound_spec tokenname _ _ hmoves hblock hcomment)
  -- the delimiter, or the end of the line
  rintro - t' ⟨hmoves', hblock', hcode⟩
  rw [wp_bind]
  have hle : t'.rest.length < s.rest.length := Nat.lt_of_le_of_lt hmoves'.le hlt
  cases hrest : t'.rest with
  | nil =>
    rw [wp_nextCharacter_nil hrest, wp_pure]
    rw [hrest] at hcode
    refine ⟨hfirst.trans hmoves', hle, hblock', ?_⟩
    rw [hrest, hquote, ← hcode]
    rfl
  | cons c r' =>
    rw [wp_nextCharacter_cons hrest, wp_pure]
    rw [hrest] at hcode hle
    refine ⟨(hfirst.trans hmoves').trans (Tokenizer.moves_take hrest.symm), ?_, hblock', ?_⟩
    · simp only [Tokenizer.take, List.length_cons] at hle ⊢
      omega
    · rw [hquote, ← hcode]
      rfl

/-! ## Tokens -/

/-- What taking a token does, from a character outside comments: at least one character is taken, and
the line still ends in a comment or not. -/
structure Tokenized (s t : Tokenizer) : Prop where
  moves : s.Moves t
  lt : t.rest.length < s.rest.length
  stops : t.blockcomment = true → t.rest = []
  comment : (t.blockcomment || endsInComment .code t.rest) = endsInComment .code s.rest

/-- Characters that are no part of a comment or a string. -/
theorem tokenized_take (hb : s.blockcomment = false) (hu : u ≠ []) (h : u ++ r = s.rest)
    (hcomment : endsInComment .code r = endsInComment .code s.rest) : Tokenized s (s.take u r) := by
  refine ⟨Tokenizer.moves_take h, ?_, fun htrue => ?_, ?_⟩
  · have := List.length_pos_of_ne_nil hu
    rw [← h, List.length_append]
    simp only [Tokenizer.take]
    omega
  · exact absurd (hb.symm.trans htrue) Bool.false_ne_true
  · have hfalse : (s.take u r).blockcomment = false := hb
    rw [hfalse, Bool.false_or]
    exact hcomment

/-- The characters of a word do not begin a comment or a string. -/
theorem wordChar_plain (h : isWordChar c = true) : c ≠ '/' ∧ isQuote c = false := by
  refine ⟨?_, ?_⟩
  · rintro rfl
    revert h
    decide
  · cases hq : isQuote c with
    | false => rfl
    | true =>
      simp only [isQuote, Bool.or_eq_true, beq_iff_eq] at hq
      rcases hq with (rfl | rfl) | rfl <;> revert h <;> decide

theorem space_plain (h : (c == ' ') = true) : c ≠ '/' ∧ isQuote c = false := by
  obtain rfl : c = ' ' := by simpa using h
  decide

theorem takeWhile_plain {p : Char → Bool} (hp : ∀ c, p c = true → c ≠ '/' ∧ isQuote c = false) :
    endsInComment .code (u.dropWhile p) = endsInComment .code u := by
  have happend := endsInComment_code_append (u := u.takeWhile p) (r := u.dropWhile p)
    fun c hc => hp c (List.mem_takeWhile_imp hc)
  rw [List.takeWhile_append_dropWhile] at happend
  exact happend.symm

/-- Multi-line comments, behind their first two characters. -/
theorem commentToken_spec (s : Tokenizer) :
    wp commentToken n (fun _ t => s.Moves t ∧ (t.blockcomment = true → t.rest = []) ∧
      (t.blockcomment || endsInComment .code t.rest) =
        endsInComment (.comment true) s.rest) E s := by
  unfold commentToken
  rw [wp_bind, wp_setBlockcomment, wp_bind]
  refine wp_mono ?_ (fun _ h => h) (finishComment_spec (s := { s with blockcomment := true }) true rfl)
  rintro - t ⟨hmoves, hstops, hcomment⟩
  have hmoves' : s.Moves t := ⟨hmoves.covers, hmoves.le⟩
  cases hrest : t.rest with
  | nil =>
    rw [wp_nextCharacter_nil hrest]
    refine ⟨hmoves', hstops, ?_⟩
    rw [← hcomment, hrest]
    rfl
  | cons c r =>
    have hblock : t.blockcomment = false := by
      cases hb : t.blockcomment with
      | false => rfl
      | true =>
        have hnil := hstops hb
        rw [hrest] at hnil
        cases hnil
    -- the character behind the comment is not read as code
    have hbehind : endsInComment (afterComment true) (c :: r) = endsInComment .code r :=
      endsInComment_cons fun d _ => rfl
    rw [wp_nextCharacter_cons hrest]
    refine ⟨hmoves'.trans (Tokenizer.moves_take hrest.symm), fun htrue => ?_, ?_⟩
    · exact absurd (hblock.symm.trans htrue) Bool.false_ne_true
    · rw [hrest, hbehind] at hcomment
      exact hcomment

/-- What a decision between names leaves the tokenizer in. -/
theorem wordToken_state (prevSstr : String) {Q : TokenName × String → Tokenizer → Prop}
    (h : ∀ x, Q x s) : wp (wordToken prevSstr) n Q E s := h _

/-! The patterns of a token, where they match and where they do not. -/

theorem word_some (hword : isWordChar c = true) :
    word.matchAt (c :: r) = some ([c :: r.takeWhile isWordChar], r.dropWhile isWordChar) :=
  matchItems_plus hword

theorem word_none (hword : isWordChar c = false) : word.matchAt (c :: r) = none :=
  matchItems_plus_none hword

theorem lineComment_some : lineComment.matchAt (['/', '/'] ++ r) = some ([['/'], ['/'], r], []) := by
  have h := @matchItems_literal [.star fun _ => true] true r ['/', '/']
  rwa [matchItems_any] at h

theorem lineComment_none (h : ¬ ['/', '/'] <+: u) : lineComment.matchAt u = none :=
  matchItems_literal_none h

theorem commentStart_some : commentStart.matchAt (['/', '*'] ++ r) = some ([['/'], ['*']], r) := by
  have h := @matchItems_literal [] false r ['/', '*']
  rwa [List.append_nil, matchItems_nil] at h

theorem commentStart_none (h : ¬ ['/', '*'] <+: u) : commentStart.matchAt u = none := by
  have hnone := @matchItems_literal_none [] false _ _ h
  rwa [List.append_nil] at hnone

/-- A character that begins no string and no comment. -/
theorem endsInComment_operator (hquote : isQuote c = false) (hline : ¬ ['/', '/'] <+: c :: r)
    (hblock : ¬ ['/', '*'] <+: c :: r) : endsInComment .code (c :: r) = endsInComment .code r := by
  have hpair : ∀ d ∈ r.head?, Mode.code.pair c d = none := by
    intro d hd
    obtain ⟨v, rfl⟩ := List.head?_eq_some_iff.1 hd
    unfold Mode.pair
    split
    · simp at hline
    · simp at hblock
    · rename_i hmode
      cases hmode
    · rfl
  rw [endsInComment_cons hpair]
  simp [Mode.next, hquote]

/-- **One token.** -/
theorem token_spec (x : Locals) (hs : s.rest = c :: r) (hb : s.blockcomment = false)
    (hn : s.rest.length < n) :
    wp (token x c) n (fun y t => y.2.cols = x.cols ∧ Tokenized s t) E s := by
  have hne : s.rest ≠ [] := by simp [hs]
  unfold token
  rw [wp_bind]
  cases hword : isWordChar c with
  | true =>
    rw [wp_nextPattern_some hne (hs ▸ word_some hword), if_pos rfl, wp_bind]
    refine wordToken_state _ fun y => ⟨rfl, tokenized_take hb (by simp) ?_ ?_⟩
    · rw [hs]
      simp
    · obtain ⟨hslash, hquote⟩ := wordChar_plain hword
      rw [hs, endsInComment_code_cons hslash hquote, takeWhile_plain fun c => wordChar_plain]
  | false =>
    rw [wp_nextPattern_none (Or.inr (hs ▸ word_none hword)), if_neg Bool.false_ne_true]
    cases hquote : isQuote c with
    | true =>
      rw [if_pos rfl, wp_bind]
      refine wp_mono ?_ (fun _ h => h) (stringToken_spec hs hquote hn)
      rintro tokenname t ⟨hmoves, hlt, hblock, hcode⟩
      have hfalse := hblock.trans hb
      refine ⟨rfl, hmoves, hlt, fun htrue => ?_, ?_⟩
      · exact absurd (hfalse.symm.trans htrue) Bool.false_ne_true
      · rw [hfalse, hcode]
        rfl
    | false =>
      rw [if_neg Bool.false_ne_true, wp_bind]
      by_cases hline : ['/', '/'] <+: s.rest
      · obtain ⟨u, hu⟩ := hline
        rw [wp_nextPattern_some hne (hu ▸ lineComment_some), if_pos rfl, wp_pure]
        refine ⟨rfl, tokenized_take hb (by simp) ?_ ?_⟩
        · simpa using hu
        · rw [← hu]
          exact endsInComment_lineComment.symm
      rw [wp_nextPattern_none (Or.inr (lineComment_none hline)), if_neg Bool.false_ne_true, wp_bind]
      by_cases hblock : ['/', '*'] <+: s.rest
      · obtain ⟨u, hu⟩ := hblock
        rw [wp_nextPattern_some hne (hu ▸ commentStart_some), if_pos rfl, wp_bind]
        have hcode : endsInComment .code s.rest = endsInComment (.comment true) u := by
          rw [← hu]
          exact endsInComment_pair rfl
        refine wp_mono ?_ (fun _ h => h) (commentToken_spec _)
        rintro - t ⟨hmoves, hstops, hcomment⟩
        refine ⟨rfl, (Tokenizer.moves_take hu).trans hmoves, ?_, hstops, hcomment.trans hcode.symm⟩
        refine Nat.lt_of_le_of_lt hmoves.le ?_
        rw [← hu]
        simp only [Tokenizer.take, List.length_append, List.length_cons]
        omega
      rw [wp_nextPattern_none (Or.inr (commentStart_none hblock)), if_neg Bool.false_ne_true, wp_bind]
      unfold operatorToken
      rw [wp_bind, wp_nextCharacter_cons hs]
      refine ⟨rfl, tokenized_take hb (by simp) hs.symm ?_⟩
      rw [hs] at hline hblock ⊢
      exact (endsInComment_operator hquote hline hblock).symm

/-! ## A line -/

theorem texts_addSegment (cols : List Segment) (text : Str) (color : TokenName) :
    ((addSegment cols text color).map Segment.text).flatten =
      (cols.map Segment.text).flatten ++ text := by
  rcases List.eq_nil_or_concat cols with rfl | ⟨init, last, rfl⟩
  · simp [addSegment]
  · unfold addSegment
    simp only [List.concat_eq_append, List.getLast?_append, List.getLast?_singleton, Option.some_or,
      List.dropLast_concat]
    split <;> simp

/-- **The invariant of the loop over a line**: the segments and what is left make up the line, and
the rest decides whether it ends in a comment. -/
structure Coloring (n : ℕ) (line : Str) (b : Bool) (x : Locals) (s : Tokenizer) : Prop where
  covers : (x.cols.map Segment.text).flatten ++ s.rest = line
  rounds : s.rest.length < n
  stops : s.blockcomment = true → s.rest = []
  comment : (s.blockcomment || endsInComment .code s.rest) = b

/-- What the loop leaves: the line up to its last spaces. -/
structure Colored (line : Str) (b : Bool) (cols : List Segment) (s : Tokenizer) : Prop where
  covers : ∃ k, (cols.map Segment.text).flatten ++ List.replicate k ' ' = line
  comment : s.blockcomment = b

/-- Skipping spaces. -/
theorem wp_spaces {P : Bool → Tokenizer → Prop} (hs : s.rest ≠ []) :
    wp (nextPattern spaces) n P E s ↔
      P true (s.take (s.rest.takeWhile (· == ' ')) (s.rest.dropWhile (· == ' '))) := by
  have hmatch : spaces.matchAt s.rest =
      some ([s.rest.takeWhile (· == ' ')], s.rest.dropWhile (· == ' ')) := matchItems_star
  rw [wp_nextPattern_some hs hmatch, List.flatten_singleton]

theorem takeWhile_space (u : Str) :
    u.takeWhile (· == ' ') = List.replicate (u.takeWhile (· == ' ')).length ' ' := by
  refine List.eq_replicate_iff.2 ⟨rfl, fun c hc => ?_⟩
  simpa using List.mem_takeWhile_imp hc

theorem Coloring.not_open {b : Bool} {x : Locals} (h : Coloring n line b x s) (hs : s.rest ≠ []) :
    s.blockcomment = false := by
  cases hb : s.blockcomment with
  | false => rfl
  | true => exact absurd (h.stops hb) hs

/-- **One round.** -/
theorem colorRound_spec {b : Bool} {x : Locals} (h : Coloring n line b x s) :
    wp (colorRound x) n (RoundEnds (Coloring n line b) (fun x t => Colored line b x.cols t)
      (fun _ t => t.rest.length) s.rest.length) E s := by
  have hcovers := h.covers
  have hcomment := h.comment
  unfold colorRound
  rw [wp_bind, wp_character]
  by_cases hs : s.rest = []
  · rw [hs, List.append_nil] at hcovers
    rw [hs] at hcomment
    rw [hs]
    refine ⟨⟨0, ?_⟩, ?_⟩
    · simpa using hcovers
    · rw [← hcomment]
      exact (Bool.or_false _).symm
  have hb := h.not_open hs
  rw [hb, Bool.false_or] at hcomment
  have hsome : s.rest.head?.isNone = false := by simpa using hs
  rw [hsome, if_neg Bool.false_ne_true, wp_bind, wp_clearTokendata, wp_bind,
    wp_spaces (s := { s with tokendata := [] }) hs, wp_bind, wp_character]
  have hskip := @takeWhile_plain s.rest (· == ' ') fun c => space_plain
  have hsplit := @List.takeWhile_append_dropWhile _ (· == ' ') s.rest
  cases hrest : s.rest.dropWhile (· == ' ') with
  | nil =>
    -- the spaces at the end of the line
    rw [hrest] at hskip hsplit
    rw [List.append_nil] at hsplit
    refine ⟨⟨(s.rest.takeWhile (· == ' ')).length, ?_⟩, ?_⟩
    · rw [← takeWhile_space, hsplit, hcovers]
    · exact hb.trans (hskip.trans hcomment)
  | cons c r =>
    have hle : (c :: r).length ≤ s.rest.length := by
      rw [← hrest]
      exact (List.dropWhile_suffix _).length_le
    rw [hrest] at hskip hsplit
    refine wp_bind _ _ |>.2 (wp_mono ?_ (fun _ h => h)
      (token_spec x rfl hb (Nat.lt_of_le_of_lt hle h.rounds)))
    rintro ⟨tokenname, x'⟩ t ⟨hcols, hmoves, hlt, hstops, htoken⟩
    have htaken := hmoves.covers
    simp only [Tokenizer.take, List.nil_append] at hlt htaken htoken
    rw [wp_bind, wp_tokendata, wp_pure]
    refine ⟨⟨?_, ?_, hstops, ?_⟩, Nat.lt_of_lt_of_le hlt hle⟩
    · dsimp only at hcols ⊢
      rw [texts_addSegment, hcols, List.append_assoc, htaken, hsplit, hcovers]
    · exact Nat.lt_trans (Nat.lt_of_lt_of_le hlt hle) h.rounds
    · rw [htoken, hskip, hcomment]

/-- The mode a line starts in. -/
def startMode (blockcomment : Bool) : Mode := if blockcomment then .comment false else .code

/-- The first segment. -/
theorem openSegment_spec (hs : s.rest = line) (hd : s.tokendata = []) (hn : line.length < n) :
    wp openSegment n (fun cols t =>
      Coloring n line (endsInComment (startMode s.blockcomment) line) ⟨cols, "", none⟩ t) E s := by
  unfold openSegment
  rw [wp_bind, wp_get]
  cases hb : s.blockcomment with
  | false =>
    rw [if_neg Bool.false_ne_true, wp_pure]
    exact ⟨hs, hs ▸ hn, fun htrue => absurd (hb.symm.trans htrue) Bool.false_ne_true, by rw [hb, hs]; rfl⟩
  | true =>
    rw [if_pos rfl, wp_bind]
    refine wp_mono ?_ (fun _ h => h) (finishComment_spec false hb)
    rintro - t ⟨hmoves, hstops, hcomment⟩
    rw [wp_bind, wp_tokendata, wp_pure]
    have hcovers := hmoves.covers
    have hle := hmoves.le
    refine ⟨?_, ?_, hstops, ?_⟩
    · simpa [hd, hs] using hcovers
    · rw [hs] at hle
      exact Nat.lt_of_le_of_lt hle hn
    · rw [hs] at hcomment
      exact hcomment

/-- **What colouring a line does.** -/
theorem syntaxColorLine_returns (line : Str) (s : Tokenizer) (hn : line.length < n) :
    wp (syntaxColorLine line) n
      (Colored line (endsInComment (startMode s.blockcomment) line)) E s := by
  unfold syntaxColorLine
  rw [wp_bind, wp_rewind, wp_bind]
  refine wp_mono ?_ (fun _ h => h) (openSegment_spec rfl rfl hn)
  intro cols t h
  rw [wp_bind, wp_read, wp_bind]
  exact wp_loop (I := Coloring n line (endsInComment (startMode s.blockcomment) line))
    (fun _ t => t.rest.length) (fun _ _ h => colorRound_spec h) h h.rounds

/-- **The highlighter terminates and loses nothing.** -/
theorem highlight_total (line : Str) (s : Tokenizer) : ∃ bound, ∀ rounds, bound ≤ rounds →
    wp (syntaxColorLine line) rounds
      (fun cols _ => ∃ k, (cols.map Segment.text).flatten ++ List.replicate k ' ' = line)
      (fun _ => False) s :=
  ⟨line.length + 1, fun _ hrounds =>
    wp_mono (fun _ _ h => h.covers) (fun _ h => h) (syntaxColorLine_returns line s hrounds)⟩

end JSChip.Editor

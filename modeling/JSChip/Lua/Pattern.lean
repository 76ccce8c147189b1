import Mathlib.Data.List.Infix

/-!
# Patterns of Lua

What `string.find`, `string.gsub` and `string.gmatch` do, for patterns of character classes,
repetitions and anchors. A string is the list of its bytes, each as the character with its number.

* `matchItems`: a match at the start of a string, in the order in which Lua tries.
* `matchItems_covers`: what is matched and what is left make up the string.
* `gmatch_some`, `gmatch_none`: the matches of a pattern, one after the other.
* `gsub_text_append`, `gsub_text_cons`: replacing a fixed text.
-/

namespace Lua

abbrev Str := List Char

/-- A class of characters, alone or repeated. -/
inductive Item
  | one (p : Char → Bool)
  /-- `*` -/
  | star (p : Char → Bool)
  /-- `+` -/
  | plus (p : Char → Bool)
  /-- `-` -/
  | lazy (p : Char → Bool)

/-- A pattern. The anchors `^` and `$` stand around the items. -/
structure Pattern where
  anchored : Bool
  items : List Item
  toEnd : Bool

variable {α : Type} {p : Char → Bool} {items : List Item} {toEnd : Bool} {s t : Str}

/-! ## Matching -/

/-- `max_expand`: as many characters as possible, then fewer. `k` matches what follows. -/
def maxExpand (p : Char → Bool) (k : Str → Option α) : Str → Option (Str × α)
  | [] => (k []).map ([], ·)
  | c :: s =>
    ((if p c then maxExpand p k s else none).map fun r => (c :: r.1, r.2)).or
      ((k (c :: s)).map ([], ·))

/-- `min_expand`: as few characters as possible, then more. -/
def minExpand (p : Char → Bool) (k : Str → Option α) : Str → Option (Str × α)
  | [] => (k []).map ([], ·)
  | c :: s =>
    ((k (c :: s)).map ([], ·)).or
      ((if p c then minExpand p k s else none).map fun r => (c :: r.1, r.2))

/-- Matching at the start of the string: what each item matches, and what is left. -/
def matchItems (toEnd : Bool) : List Item → Str → Option (List Str × Str)
  | [], s => if toEnd && !s.isEmpty then none else some ([], s)
  | .one p :: items, s => match s with
    | [] => none
    | c :: s => if p c then (matchItems toEnd items s).map fun r => ([c] :: r.1, r.2) else none
  | .star p :: items, s => (maxExpand p (matchItems toEnd items) s).map fun r => (r.1 :: r.2.1, r.2.2)
  | .plus p :: items, s => match s with
    | [] => none
    | c :: s =>
      if p c then
        (maxExpand p (matchItems toEnd items) s).map fun r => ((c :: r.1) :: r.2.1, r.2.2)
      else none
  | .lazy p :: items, s => (minExpand p (matchItems toEnd items) s).map fun r => (r.1 :: r.2.1, r.2.2)

/-- A match at the start of the string. -/
def Pattern.matchAt (p : Pattern) (s : Str) : Option (List Str × Str) := matchItems p.toEnd p.items s

/-- `string.find`: whether there is a match. -/
def find (s : Str) (p : Pattern) : Bool :=
  if p.anchored then (p.matchAt s).isSome else s.tails.any fun t => (p.matchAt t).isSome

/-- A match at the end of the string is found. -/
theorem find_append {p : Pattern} (hp : p.anchored = false) (h : (p.matchAt t).isSome = true) :
    find (s ++ t) p = true := by
  unfold find
  simp only [hp, Bool.false_eq_true, if_false, List.any_eq_true]
  exact ⟨t, (List.mem_tails t (s ++ t)).2 (List.suffix_append s t), h⟩

/-- Replacing all matches. A match of no characters is followed by a character that is copied. -/
def replaceAll (p : Pattern) (repl : List Str → Str) (s : Str) : Str :=
  match p.matchAt s, s with
  | some (ts, r), s =>
    if r.length < s.length then repl ts ++ replaceAll p repl r
    else match s with
      | [] => repl ts
      | c :: s => repl ts ++ c :: replaceAll p repl s
  | none, [] => []
  | none, c :: s => c :: replaceAll p repl s
termination_by s.length

/-- `string.gsub`, with what replaces a match as a function of what its items match. -/
def gsub (s : Str) (p : Pattern) (repl : List Str → Str) : Str :=
  if p.anchored then
    match p.matchAt s with
    | some (ts, r) => repl ts ++ r
    | none => s
  else replaceAll p repl s

/-- `string.gmatch`: the matches, in order. -/
def gmatch (s : Str) (p : Pattern) : List Str :=
  match p.matchAt s, s with
  | some (ts, r), s =>
    if r.length < s.length then ts.flatten :: gmatch r p
    else match s with
      | [] => [ts.flatten]
      | _ :: s => ts.flatten :: gmatch s p
  | none, [] => []
  | none, _ :: s => gmatch s p
termination_by s.length

/-! ## What a match covers -/

theorem maxExpand_covers {k : Str → Option α} {f : α → Str}
    (hk : ∀ s a, k s = some a → f a = s) : ∀ {s t : Str} {a : α},
      maxExpand p k s = some (t, a) → t ++ f a = s := by
  intro s
  induction s with
  | nil =>
    intro t a h
    rw [maxExpand, Option.map_eq_some_iff] at h
    obtain ⟨b, hb, hab⟩ := h
    cases hab
    exact hk _ _ hb
  | cons c s ih =>
    intro t a h
    rw [maxExpand, Option.or_eq_some_iff] at h
    rcases h with h | ⟨-, h⟩
    · rw [Option.map_eq_some_iff] at h
      obtain ⟨⟨t', b⟩, hb, hab⟩ := h
      cases hab
      split at hb
      · rw [List.cons_append, ih hb]
      · cases hb
    · rw [Option.map_eq_some_iff] at h
      obtain ⟨b, hb, hab⟩ := h
      cases hab
      exact hk _ _ hb

theorem minExpand_covers {k : Str → Option α} {f : α → Str}
    (hk : ∀ s a, k s = some a → f a = s) : ∀ {s t : Str} {a : α},
      minExpand p k s = some (t, a) → t ++ f a = s := by
  intro s
  induction s with
  | nil =>
    intro t a h
    rw [minExpand, Option.map_eq_some_iff] at h
    obtain ⟨b, hb, hab⟩ := h
    cases hab
    exact hk _ _ hb
  | cons c s ih =>
    intro t a h
    rw [minExpand, Option.or_eq_some_iff] at h
    rcases h with h | ⟨-, h⟩
    · rw [Option.map_eq_some_iff] at h
      obtain ⟨b, hb, hab⟩ := h
      cases hab
      exact hk _ _ hb
    · rw [Option.map_eq_some_iff] at h
      obtain ⟨⟨t', b⟩, hb, hab⟩ := h
      cases hab
      split at hb
      · rw [List.cons_append, ih hb]
      · cases hb

/-- **What is matched and what is left make up the string.** -/
theorem matchItems_covers : ∀ {items : List Item} {s : Str} {ts : List Str} {r : Str},
    matchItems toEnd items s = some (ts, r) → ts.flatten ++ r = s := by
  intro items
  induction items with
  | nil =>
    intro s ts r h
    rw [matchItems] at h
    split at h
    · cases h
    · cases h
      rfl
  | cons item items ih =>
    have hk : ∀ s a, matchItems toEnd items s = some a → a.1.flatten ++ a.2 = s := fun s a h => ih h
    intro s ts r h
    cases item with
    | one p =>
      cases s with
      | nil => cases h
      | cons c s =>
        simp only [matchItems] at h
        split at h
        · obtain ⟨a, ha, hab⟩ := Option.map_eq_some_iff.1 h
          cases hab
          simpa using hk _ _ ha
        · cases h
    | star p =>
      obtain ⟨⟨t, a⟩, ha, hab⟩ := Option.map_eq_some_iff.1 h
      cases hab
      simpa using maxExpand_covers hk ha
    | plus p =>
      cases s with
      | nil => cases h
      | cons c s =>
        simp only [matchItems] at h
        split at h
        · obtain ⟨⟨t, a⟩, ha, hab⟩ := Option.map_eq_some_iff.1 h
          cases hab
          simpa using maxExpand_covers hk ha
        · cases h
    | lazy p =>
      obtain ⟨⟨t, a⟩, ha, hab⟩ := Option.map_eq_some_iff.1 h
      cases hab
      simpa using minExpand_covers hk ha

/-! ## Repetitions -/

/-- A repetition that is followed by nothing takes all it can. -/
theorem maxExpand_some {f : Str → α} :
    maxExpand p (fun s => some (f s)) s = some (s.takeWhile p, f (s.dropWhile p)) := by
  induction s with
  | nil => rfl
  | cons c s ih =>
    cases hc : p c <;> simp [maxExpand, hc, ih]

theorem matchItems_nil : matchItems false [] s = some ([], s) := rfl

theorem matchItems_star :
    matchItems false [.star p] s = some ([s.takeWhile p], s.dropWhile p) := by
  have hk : matchItems false [] = fun s => some ([], s) := rfl
  rw [matchItems, hk, maxExpand_some]
  rfl

theorem matchItems_plus {c : Char} (hc : p c = true) :
    matchItems false [.plus p] (c :: s) = some ([c :: s.takeWhile p], s.dropWhile p) := by
  have hk : matchItems false [] = fun s => some ([], s) := rfl
  rw [matchItems]
  simp only [hc, if_true]
  rw [hk, maxExpand_some]
  rfl

theorem matchItems_plus_none {c : Char} (hc : p c = false) :
    matchItems false [.plus p] (c :: s) = none := by
  simp [matchItems, hc]

/-- A repetition takes what stands before a match. -/
theorem maxExpand_append {k : Str → Option α} {u w : Str} {a : α} (hu : ∀ c ∈ u, p c = true)
    (h : maxExpand p k w = some (t, a)) : maxExpand p k (u ++ w) = some (u ++ t, a) := by
  induction u with
  | nil => exact h
  | cons c u ih =>
    rw [List.forall_mem_cons] at hu
    rw [List.cons_append, maxExpand, if_pos hu.1, ih hu.2]
    rfl

/-- `.*` takes all that is left. -/
theorem matchItems_any : matchItems toEnd [.star fun _ => true] s = some ([s], []) := by
  have hk : matchItems toEnd [] [] = some ([], []) := by simp [matchItems]
  have hnil : maxExpand (fun _ => true) (matchItems toEnd []) [] = some ([], [], []) := by
    simp [maxExpand, hk]
  have hall := maxExpand_append (u := s) (fun _ _ => rfl) hnil
  rw [List.append_nil] at hall
  rw [matchItems, hall]
  rfl

/-- The shortest repetition is the empty one. -/
theorem matchItems_lazy_some {ts : List Str} {r : Str}
    (h : matchItems toEnd items s = some (ts, r)) :
    matchItems toEnd (.lazy p :: items) s = some ([] :: ts, r) := by
  rw [matchItems]
  cases s <;> simp [minExpand, h]

/-- A character that has to be taken: what is left is the same without it. -/
theorem matchItems_lazy_none {c : Char} (hc : p c = true)
    (h : matchItems toEnd items (c :: s) = none) :
    (matchItems toEnd (.lazy p :: items) (c :: s)).map Prod.snd =
      (matchItems toEnd (.lazy p :: items) s).map Prod.snd := by
  simp only [matchItems, minExpand, h, hc, if_true, Option.map_none, Option.none_or,
    Option.map_map]
  rfl

/-! ## All matches -/

theorem gmatch_some {p : Pattern} {ts : List Str} {r : Str} (h : p.matchAt s = some (ts, r))
    (hlen : r.length < s.length) : gmatch s p = ts.flatten :: gmatch r p := by
  rw [gmatch.eq_def]
  simp only [h, hlen, if_true]

theorem gmatch_none {p : Pattern} {c : Char} (h : p.matchAt (c :: s) = none) :
    gmatch (c :: s) p = gmatch s p := by
  rw [gmatch.eq_def]
  simp only [h]

theorem gmatch_nil {p : Pattern} (h : p.matchAt [] = none) : gmatch [] p = [] := by
  rw [gmatch.eq_def]
  simp only [h]

/-! ## Fixed texts -/

/-- The items that match a text and no other. -/
def literal (w : Str) : List Item := w.map fun c => .one (· == c)

theorem matchItems_literal {w : Str} :
    matchItems toEnd (literal w ++ items) (w ++ s) =
      (matchItems toEnd items s).map fun r => (w.map (fun c => [c]) ++ r.1, r.2) := by
  induction w with
  | nil => simp [literal]
  | cons c w ih =>
    rw [List.cons_append, literal, List.map_cons, ← literal, List.cons_append]
    simp only [matchItems, beq_self_eq_true, if_true]
    rw [ih, Option.map_map]
    rfl

theorem matchItems_literal_none {w : Str} : ∀ {s : Str}, ¬ w <+: s →
    matchItems toEnd (literal w ++ items) s = none := by
  induction w with
  | nil =>
    intro s h
    exact absurd (List.nil_prefix) h
  | cons c w ih =>
    intro s h
    rw [literal, List.map_cons, ← literal, List.cons_append]
    cases s with
    | nil => rfl
    | cons d s =>
      by_cases hd : d = c
      · subst hd
        have hw : ¬ w <+: s := fun hw => h (List.cons_prefix_cons.2 ⟨rfl, hw⟩)
        simp [matchItems, ih hw]
      · simp [matchItems, hd]

/-- A pattern that is a fixed text. -/
def Pattern.text (w : Str) : Pattern := ⟨false, literal w, false⟩

theorem matchAt_text {w : Str} : (Pattern.text w).matchAt (w ++ s) = some (w.map fun c => [c], s) := by
  have h := @matchItems_literal [] false s w
  rw [List.append_nil, matchItems_nil] at h
  simpa [Pattern.text, Pattern.matchAt] using h

theorem matchAt_text_none {w : Str} (h : ¬ w <+: s) : (Pattern.text w).matchAt s = none := by
  have hnone := @matchItems_literal_none [] false w s h
  rwa [List.append_nil] at hnone

/-- **Replacing a text where it stands.** -/
theorem gsub_text_append {w : Str} (hw : w ≠ []) (repl : List Str → Str) :
    gsub (w ++ s) (.text w) repl = repl (w.map fun c => [c]) ++ gsub s (.text w) repl := by
  have hlen : s.length < (w ++ s).length := by
    have := List.length_pos_of_ne_nil hw
    rw [List.length_append]
    omega
  have hfree : ∀ t, gsub t (.text w) repl = replaceAll (.text w) repl t := fun _ => rfl
  rw [hfree, hfree, replaceAll.eq_def]
  simp only [matchAt_text, hlen, if_true]

/-- **A character at which the text does not stand is copied.** -/
theorem gsub_text_cons {w : Str} {c : Char} (h : ¬ w <+: c :: s) (repl : List Str → Str) :
    gsub (c :: s) (.text w) repl = c :: gsub s (.text w) repl := by
  have hfree : ∀ t, gsub t (.text w) repl = replaceAll (.text w) repl t := fun _ => rfl
  rw [hfree, hfree, replaceAll.eq_def]
  simp only [matchAt_text_none h]

theorem gsub_text_nil {w : Str} (hw : w ≠ []) (repl : List Str → Str) :
    gsub [] (.text w) repl = [] := by
  have h : ¬ w <+: [] := fun h => hw (List.prefix_nil.1 h)
  have hfree : gsub [] (.text w) repl = replaceAll (.text w) repl [] := rfl
  rw [hfree, replaceAll.eq_def]
  simp only [matchAt_text_none h]

end Lua

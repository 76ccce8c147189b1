import Mathlib.Data.List.Forall2
import Mathlib.Data.List.Infix

/-!
# Parsers of a buffer of bytes

A parser takes bytes from the front of a buffer, and fails where it wants more than there are.

* `Exact eof p bs x`: on `bs`, whatever follows it, `p` takes `bs` and answers `x`; on a buffer that
  ends within `bs` it fails with `eof`.
* `Streams eof p`: whenever `p` succeeds, it is exact on what it took. So what it answers depends on
  that alone, and no part of it would have been enough.
* `Exact.bind`, `Streams.bind`, `Exact.times`, `Streams.times`: the rules of composition.
-/

namespace Codec

variable {ε α β γ : Type} {eof : ε}

/-- What is left of a buffer, and the place in the buffer where it begins. -/
structure Input where
  pos : ℕ
  rest : List UInt8
deriving DecidableEq, Repr

abbrev Parser (ε : Type) : Type → Type := StateT Input (Except ε)

/-- A run of two steps that succeeds is two that do. -/
theorem bind_eq_ok {σ : Type} {m : StateT σ (Except ε) α} {f : α → StateT σ (Except ε) β} {s s' : σ}
    {y : β} (h : (m >>= f) s = .ok (y, s')) : ∃ x t, m s = .ok (x, t) ∧ f x t = .ok (y, s') := by
  have happly : (m >>= f) s = (m s).bind fun r => f r.1 r.2 := rfl
  rw [happly] at h
  cases hm : m s with
  | error e =>
    rw [hm] at h
    cases h
  | ok r =>
    rw [hm] at h
    exact ⟨r.1, r.2, rfl, h⟩

namespace Parser

/-- The next `n` bytes. -/
def take (eof : ε) (n : ℕ) : Parser ε (List UInt8) := fun i =>
  if i.rest.length < n then .error eof
  else .ok (i.rest.take n, ⟨i.pos + n, i.rest.drop n⟩)

/-- The next byte. -/
def byte (eof : ε) : Parser ε UInt8 := fun i =>
  match i.rest with
  | [] => .error eof
  | b :: rest => .ok (b, ⟨i.pos + 1, rest⟩)

/-- A failure, which may name the place. -/
def fail (e : ℕ → ε) : Parser ε α := fun i => .error (e i.pos)

/-- What `p` reads, `n` times. -/
def times (p : Parser ε α) : ℕ → Parser ε (List α)
  | 0 => pure []
  | n + 1 => do
    let x ← p
    let xs ← times p n
    pure (x :: xs)

theorem bind_apply (p : Parser ε α) (f : α → Parser ε β) (i : Input) :
    (p >>= f) i = (p i).bind fun r => f r.1 r.2 := rfl

end Parser

/-- The parser takes `bs` and answers `x`, whatever comes after, and fails with `eof` on any buffer
that ends within `bs`. -/
structure Exact (eof : ε) (p : Parser ε α) (bs : List UInt8) (x : α) : Prop where
  reads : ∀ pos rest, p ⟨pos, bs ++ rest⟩ = .ok (x, ⟨pos + bs.length, rest⟩)
  cut : ∀ pos pre, pre <+: bs → pre ≠ bs → p ⟨pos, pre⟩ = .error eof

/-- A parser whose every success is exact. -/
def Streams (eof : ε) (p : Parser ε α) : Prop :=
  ∀ i x j, p i = .ok (x, j) → ∃ bs, i.rest = bs ++ j.rest ∧ Exact eof p bs x

/-! ## Exact parsers -/

namespace Exact

theorem pure (x : α) : Exact eof (pure x : Parser ε α) [] x where
  reads _ _ := rfl
  cut := by
    intro pos pre hpre hne
    exact absurd (List.prefix_nil.mp hpre) hne

/-- A buffer that ends within `bs ++ bs'` ends within `bs`, or after it and within `bs'`. -/
theorem prefix_append_cases {pre bs bs' : List UInt8} (h : pre <+: bs ++ bs') (hne : pre ≠ bs ++ bs') :
    (pre <+: bs ∧ pre ≠ bs) ∨ ∃ pre', pre = bs ++ pre' ∧ pre' <+: bs' ∧ pre' ≠ bs' := by
  rcases List.prefix_or_prefix_of_prefix h (List.prefix_append bs bs') with hpre | ⟨pre', rfl⟩
  · rcases eq_or_ne pre bs with rfl | hbs
    · refine .inr ⟨[], (List.append_nil _).symm, List.nil_prefix, ?_⟩
      rintro rfl
      exact hne (List.append_nil _).symm
    · exact .inl ⟨hpre, hbs⟩
  · refine .inr ⟨pre', rfl, (List.prefix_append_right_inj bs).mp h, ?_⟩
    rintro rfl
    exact hne rfl

/-- **One after the other.** -/
theorem bind {p : Parser ε α} {f : α → Parser ε β} {bs bs' : List UInt8} {x : α} {y : β}
    (hp : Exact eof p bs x) (hf : Exact eof (f x) bs' y) : Exact eof (p >>= f) (bs ++ bs') y where
  reads := by
    intro pos rest
    rw [Parser.bind_apply, List.append_assoc, hp.reads]
    show f x _ = _
    rw [hf.reads, List.length_append, Nat.add_assoc]
  cut := by
    intro pos pre hpre hne
    rw [Parser.bind_apply]
    rcases prefix_append_cases hpre hne with ⟨hbs, hne⟩ | ⟨pre', rfl, hbs', hne⟩
    · rw [hp.cut pos pre hbs hne]
      rfl
    · rw [hp.reads]
      exact hf.cut _ _ hbs' hne

/-- What comes after takes nothing. -/
theorem bind_nil {p : Parser ε α} {f : α → Parser ε β} {bs : List UInt8} {x : α} {y : β}
    (hp : Exact eof p bs x) (hf : Exact eof (f x) [] y) : Exact eof (p >>= f) bs y := by
  have h := hp.bind hf
  rwa [List.append_nil] at h

theorem map {p : Parser ε α} {bs : List UInt8} {x : α} (f : α → β) (hp : Exact eof p bs x) :
    Exact eof (f <$> p) bs (f x) := by
  rw [map_eq_pure_bind]
  exact hp.bind_nil (Exact.pure (f x))

theorem byte (b : UInt8) : Exact eof (Parser.byte eof) [b] b where
  reads _ _ := rfl
  cut := by
    intro pos pre hpre hne
    have hnil : pre = [] := by
      rcases List.prefix_cons_iff.mp hpre with rfl | ⟨t, rfl, ht⟩
      · rfl
      · rw [List.prefix_nil.mp ht] at hne
        exact absurd rfl hne
    subst hnil
    rfl

theorem take (bs : List UInt8) : Exact eof (Parser.take eof bs.length) bs bs where
  reads := by
    intro pos rest
    have hlen : ¬ (bs ++ rest).length < bs.length := by
      rw [List.length_append]
      omega
    show (if _ then _ else _) = _
    rw [if_neg hlen, List.take_left, List.drop_left]
  cut := by
    intro pos pre hpre hne
    have hlt : pre.length < bs.length := by
      have hle := hpre.length_le
      have hlen : pre.length ≠ bs.length := fun h => hne (hpre.eq_of_length h)
      omega
    show (if _ then _ else _) = _
    rw [if_pos hlt]

/-- **A list of things in a row.** -/
theorem times {p : Parser ε α} {bss : List (List UInt8)} {xs : List α}
    (h : List.Forall₂ (Exact eof p) bss xs) : Exact eof (Parser.times p xs.length) bss.flatten xs := by
  induction h with
  | nil => exact Exact.pure []
  | @cons bs x bss xs hx _ ih =>
    have h := ih.bind_nil (f := fun ys => Pure.pure (x :: ys)) (Exact.pure (x :: xs))
    show Exact eof (p >>= fun y => Parser.times p xs.length >>= fun ys => Pure.pure (y :: ys)) _ _
    exact hx.bind h

theorem times_map {p : Parser ε α} {l : List γ} {w : γ → List UInt8} {g : γ → α}
    (h : ∀ a ∈ l, Exact eof p (w a) (g a)) :
    Exact eof (Parser.times p l.length) (l.flatMap w) (l.map g) := by
  have hall : List.Forall₂ (Exact eof p) (l.map w) (l.map g) := by
    rw [List.forall₂_map_left_iff, List.forall₂_map_right_iff, List.forall₂_same]
    exact h
  have h := times hall
  rwa [List.length_map] at h

end Exact

/-! ## Streaming parsers -/

namespace Streams

theorem pure (x : α) : Streams eof (pure x : Parser ε α) := by
  intro i y j h
  cases h
  exact ⟨[], rfl, Exact.pure x⟩

theorem fail (e : ℕ → ε) : Streams eof (Parser.fail e : Parser ε α) := by
  intro i x j h
  cases h

theorem throw (e : ε) : Streams eof (throw e : Parser ε α) := by
  intro i x j h
  cases h

theorem byte : Streams eof (Parser.byte eof) := by
  intro i b j h
  obtain ⟨pos, rest⟩ := i
  cases rest with
  | nil => cases h
  | cons c rest =>
    cases h
    exact ⟨[b], rfl, Exact.byte b⟩

theorem take (n : ℕ) : Streams eof (Parser.take eof n) := by
  intro i bs j h
  unfold Parser.take at h
  split at h
  · cases h
  next hlt =>
    cases h
    refine ⟨i.rest.take n, (List.take_append_drop n i.rest).symm, ?_⟩
    have hlen : (i.rest.take n).length = n := by
      rw [List.length_take]
      omega
    have h : Exact eof _ _ _ := Exact.take (i.rest.take n)
    rwa [hlen] at h

/-- **One after the other.** -/
theorem bind {p : Parser ε α} {f : α → Parser ε β} (hp : Streams eof p)
    (hf : ∀ x, Streams eof (f x)) : Streams eof (p >>= f) := by
  intro i y j h
  obtain ⟨x, k, hx, hy⟩ := bind_eq_ok h
  obtain ⟨bs, hi, hbs⟩ := hp i x k hx
  obtain ⟨bs', hk, hbs'⟩ := hf x k y j hy
  refine ⟨bs ++ bs', ?_, hbs.bind hbs'⟩
  rw [hi, hk, List.append_assoc]

theorem map {p : Parser ε α} (f : α → β) (hp : Streams eof p) : Streams eof (f <$> p) := by
  rw [map_eq_pure_bind]
  exact hp.bind fun x => Streams.pure _

theorem ite {c : Prop} [Decidable c] {p q : Parser ε α} (hp : Streams eof p) (hq : Streams eof q) :
    Streams eof (if c then p else q) := by
  split
  · exact hp
  · exact hq

theorem times {p : Parser ε α} (hp : Streams eof p) : ∀ n, Streams eof (Parser.times p n)
  | 0 => Streams.pure []
  | n + 1 => hp.bind fun _ => (times hp n).bind fun _ => Streams.pure _

end Streams

end Codec

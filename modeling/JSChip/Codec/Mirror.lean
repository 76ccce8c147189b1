import JSChip.Codec.Parser

/-!
# A writer and its reader

A writer appends bytes and grows a dictionary, to whose entries the bytes may refer. The reader is
given the whole dictionary. `Mirrors m eof w r x` says that on whatever bytes `w` appends, and with
any dictionary that has grown from the one that `w` leaves, `r` is exact and answers `x`.

* `Mirrors.bind`: a writer made of two, and a reader made of two.
* `Mirrors.forEach`: a writer that goes through a list, and a reader that counts.
-/

namespace Codec

variable {σ W ε ε' α β γ : Type} {eof : ε}

abbrev Writer (ε' σ : Type) : Type → Type := StateT σ (Except ε')

/-- Where a writer keeps its bytes and its dictionary, and what its state always satisfies. -/
structure Medium (σ W : Type) where
  out : σ → List UInt8
  dictionary : σ → W
  Valid : σ → Prop
  Grows : W → W → Prop
  refl : ∀ d, Grows d d
  trans : ∀ {d d' d''}, Grows d d' → Grows d' d'' → Grows d d''

/-- What `w` writes, `r` reads back as `x`. -/
def Mirrors (m : Medium σ W) (eof : ε) (w : Writer ε' σ Unit) (r : W → Parser ε α) (x : α) : Prop :=
  ∀ s s', m.Valid s → w s = .ok ((), s') →
    m.Valid s' ∧ m.Grows (m.dictionary s) (m.dictionary s') ∧
      ∃ bs, m.out s' = m.out s ++ bs ∧ ∀ d, m.Grows (m.dictionary s') d → Exact eof (r d) bs x

namespace Mirrors

variable {m : Medium σ W}

theorem pure (x : α) : Mirrors m eof (pure () : Writer ε' σ Unit) (fun _ => Pure.pure x) x := by
  intro s s' hs h
  cases h
  exact ⟨hs, m.refl _, [], (List.append_nil _).symm, fun d _ => Exact.pure x⟩

/-- A writer that fails has nothing to be read back. -/
theorem throw (e : ε') (r : W → Parser ε α) (x : α) :
    Mirrors m eof (throw e : Writer ε' σ Unit) r x := by
  intro s s' _ h
  cases h

theorem ite {c : Prop} [Decidable c] {w w' : Writer ε' σ Unit} {r : W → Parser ε α} {x : α}
    (h : c → Mirrors m eof w r x) (h' : ¬ c → Mirrors m eof w' r x) :
    Mirrors m eof (if c then w else w') r x := by
  split
  · next hc => exact h hc
  · next hc => exact h' hc

/-- **One after the other.** -/
theorem bind {w w' : Writer ε' σ Unit} {r : W → Parser ε α} {f : W → α → Parser ε β} {x : α} {y : β}
    (hw : Mirrors m eof w r x) (hw' : Mirrors m eof w' (fun d => f d x) y) :
    Mirrors m eof (do w; w') (fun d => r d >>= f d) y := by
  intro s s' hs h
  obtain ⟨_, t, ht, ht'⟩ := bind_eq_ok h
  obtain ⟨hvt, hgt, bs, hout, hr⟩ := hw s t hs ht
  obtain ⟨hvs, hgs, bs', hout', hr'⟩ := hw' t s' hvt ht'
  refine ⟨hvs, m.trans hgt hgs, bs ++ bs', ?_, ?_⟩
  · rw [hout', hout, List.append_assoc]
  · intro d hd
    exact (hr d (m.trans hgs hd)).bind (hr' d hd)

/-- What the first of the two writes may be read in two steps. -/
theorem bind_assoc {δ : Type} {w w' : Writer ε' σ Unit} {r : W → Parser ε δ}
    {f : W → δ → Parser ε α} {f' : W → α → Parser ε β} {x : α} {y : β}
    (hw : Mirrors m eof w (fun d => r d >>= f d) x) (hw' : Mirrors m eof w' (fun d => f' d x) y) :
    Mirrors m eof (do w; w') (fun d => r d >>= fun z => f d z >>= f' d) y := by
  have h := hw.bind hw'
  simp only [LawfulMonad.bind_assoc] at h
  exact h

theorem map {w : Writer ε' σ Unit} {r : W → Parser ε α} {x : α} (f : α → β)
    (hw : Mirrors m eof w r x) : Mirrors m eof w (fun d => f <$> r d) (f x) := by
  intro s s' hs h
  obtain ⟨hvs, hgs, bs, hout, hr⟩ := hw s s' hs h
  exact ⟨hvs, hgs, bs, hout, fun d hd => (hr d hd).map f⟩

/-- The reader may go on with what takes nothing. -/
theorem bind_exact {w : Writer ε' σ Unit} {r : W → Parser ε α} {f : W → α → Parser ε β} {x : α} {y : β}
    (hw : Mirrors m eof w r x) (hf : ∀ d, Exact eof (f d x) [] y) :
    Mirrors m eof w (fun d => r d >>= f d) y := by
  intro s s' hs h
  obtain ⟨hvs, hgs, bs, hout, hr⟩ := hw s s' hs h
  exact ⟨hvs, hgs, bs, hout, fun d hd => (hr d hd).bind_nil (hf d)⟩

/-- The reader may answer the last thing it reads under another name. -/
theorem bind_pure {w : Writer ε' σ Unit} {r : W → Parser ε α} {x : α} (f : α → β)
    (hw : Mirrors m eof w r x) : Mirrors m eof w (fun d => r d >>= fun y => Pure.pure (f y)) (f x) := by
  have h := hw.map f
  simp only [map_eq_pure_bind] at h
  exact h

/-- **A writer that goes through a list, and a reader that counts.** -/
theorem forEach {w : γ → Writer ε' σ Unit} {r : W → Parser ε α} {g : γ → α} :
    ∀ {l : List γ}, (∀ a ∈ l, Mirrors m eof (w a) r (g a)) →
      Mirrors m eof (l.forM w) (fun d => (r d).times l.length) (l.map g)
  | [], _ => pure []
  | a :: l, h => by
    have ha := h a List.mem_cons_self
    have hl := forEach (l := l) fun b hb => h b (List.mem_cons_of_mem a hb)
    show Mirrors m eof (do w a; l.forM w)
      (fun d => r d >>= fun x => (r d).times l.length >>= fun xs => Pure.pure (x :: xs)) _
    exact ha.bind (hl.bind_pure (g a :: ·))

/-- Reading by an equal parser. -/
theorem congr {w : Writer ε' σ Unit} {r r' : W → Parser ε α} {x x' : α} (hw : Mirrors m eof w r x)
    (hr : ∀ d, r' d = r d) (hx : x' = x) : Mirrors m eof w r' x' := by
  obtain rfl : r' = r := funext hr
  subst hx
  exact hw

end Mirrors

end Codec

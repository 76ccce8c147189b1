import Mathlib.Data.Finset.Image
import Mathlib.Order.Interval.Finset.Nat
import JSChip.Machine.Run
import JSChip.Spec.Upload

/-!
# Do uploads arrive intact?

* `chunksOf_flatten`: the chunks of a script, joined, are the script.
* `Collected`: what is in the table while an upload is received: chunks left over from
  earlier uploads, and the chunks of this one handled so far.
* `intact_step`, `intact_run`: **an upload arrives intact unless chunks left over from an
  earlier one complete it** (`CleanStart`).
* `stale_mix`: an upload cut short after two of three chunks, then one of two chunks: the
  server compiles the new first chunk with the old second one.
-/

namespace JSChip

open Machine

variable {α : Type}

/-! ## Chunks -/

theorem length_chunksOf (script : List α) :
    (chunksOf script).length = (script.length + (chunkSize - 1)) / chunkSize := by
  simp [chunksOf]

/-- The first `m` chunks are the first `m * chunkSize` bytes. -/
theorem flatten_take_chunks (script : List α) (m : ℕ) :
    ((List.range m).map fun k => (script.drop (chunkSize * k)).take chunkSize).flatten =
      script.take (chunkSize * m) := by
  induction m with
  | zero => simp
  | succ m ih =>
    rw [List.range_succ, List.map_append, List.flatten_append, ih, List.map_singleton,
      List.flatten_singleton, Nat.mul_succ, List.take_add]

/-- **The chunks, joined, are the script.** -/
theorem chunksOf_flatten (script : List α) : (chunksOf script).flatten = script := by
  rw [chunksOf, flatten_take_chunks]
  refine List.take_of_length_le ?_
  unfold chunkSize
  omega

theorem chunksOf_pos {script : List α} (h : script ≠ []) : 0 < (chunksOf script).length := by
  have := List.length_pos_of_ne_nil h
  rw [length_chunksOf]
  unfold chunkSize
  omega

/-! ## Joining a table -/

theorem mapM_eq_some {β γ : Type} {f : β → Option γ} {g : β → γ} : ∀ {l : List β},
    (∀ x ∈ l, f x = some (g x)) → l.mapM f = some (l.map g) := by
  intro l
  induction l with
  | nil => intro _; rfl
  | cons x xs ih =>
    intro h
    rw [List.mapM_cons, h x List.mem_cons_self, ih fun y hy => h y (List.mem_cons_of_mem _ hy)]
    rfl

/-- **What is in the table**: entries left over (`K` are their indices), and the chunks of the
script at the positions in `H`, each at its index. -/
structure Collected (script : List α) (K H : Finset ℕ) (t : ChunkTable α) : Prop where
  keys : t.keys.toFinset = K ∪ H.image (· + 1)
  data : ∀ k ∈ H, t.lookup (k + 1) = some ((chunksOf script).getD k [])

variable {script : List α} {K H : Finset ℕ} {t : ChunkTable α} {k : ℕ}

theorem Collected.start (script : List α) (t : ChunkTable α) :
    Collected script t.keys.toFinset ∅ t :=
  ⟨by simp, fun _ h => absurd h (Finset.notMem_empty _)⟩

theorem Collected.insert (h : Collected script K H t) (k : ℕ) :
    Collected script K (insert k H) (t.insert (k + 1) ((chunksOf script).getD k [])) := by
  refine ⟨?_, fun j hj => ?_⟩
  · ext i
    have hi : i ∈ t ↔ i ∈ K ∪ H.image (· + 1) := by
      rw [← h.keys, List.mem_toFinset, AList.mem_keys]
    rw [List.mem_toFinset, ← AList.mem_keys, AList.mem_insert, hi, Finset.image_insert,
      Finset.union_insert, Finset.mem_insert]
  · rcases eq_or_ne j k with rfl | hjk
    · exact AList.lookup_insert t
    · rw [AList.lookup_insert_ne (by omega)]
      exact h.data j (Finset.mem_of_mem_insert_of_ne hj hjk)

theorem Collected.count (h : Collected script K H t) :
    tableCount t = (K ∪ H.image (· + 1)).card := by
  rw [tableCount, ← h.keys, List.toFinset_card_of_nodup t.keys_nodup]

theorem image_succ_range (n : ℕ) : (Finset.range n).image (· + 1) = Finset.Ico 1 (n + 1) := by
  ext i
  simp only [Finset.mem_image, Finset.mem_range, Finset.mem_Ico]
  constructor
  · rintro ⟨j, hj, rfl⟩; omega
  · intro h; exact ⟨i - 1, by omega, by omega⟩

/-- A table with the indices `1 .. n` has one border. -/
theorem length_of_keys (len : LuaLength α) {n : ℕ} (h : ∀ i, i ∈ t ↔ 1 ≤ i ∧ i < n + 1) :
    len.1 t = n := by
  obtain ⟨hat, hafter⟩ := len.2 t
  rw [AList.lookup_eq_none, h] at hafter
  rw [AList.lookup_isSome, h] at hat
  omega

theorem map_getD_range {β : Type} (d : β) (l : List β) :
    (List.range l.length).map (fun k => l.getD k d) = l := by
  refine List.ext_getElem (by simp) fun i hi hi' => ?_
  simp [hi']

/-- **All chunks of the script, and nothing else, join to the script**, whichever border the
length operator answers. -/
theorem Collected.concat (len : LuaLength α)
    (h : Collected script K (Finset.range (chunksOf script).length) t)
    (hK : ∀ i ∈ K, i ∈ Finset.Ico 1 ((chunksOf script).length + 1)) :
    tableConcat len t = some script := by
  have hlen : len.1 t = (chunksOf script).length := by
    refine length_of_keys len fun i => ?_
    rw [AList.mem_keys, ← List.mem_toFinset, h.keys, image_succ_range,
      Finset.union_eq_right.2 hK, Finset.mem_Ico]
  have hall : ∀ k ∈ List.range (chunksOf script).length,
      t.lookup (k + 1) = some ((chunksOf script).getD k []) := by
    intro k hk
    rw [List.mem_range] at hk
    exact h.data k (Finset.mem_range.2 hk)
  rw [tableConcat, hlen, mapM_eq_some hall, map_getD_range, Option.map_some, chunksOf_flatten]

/-! ## One message -/

/-- A message carries its numbers as they are, if there are not too many chunks. -/
theorem chunkMessage_numbers (hn : (chunksOf script).length ≤ 65535)
    (hk : k < (chunksOf script).length) :
    (chunkMessage script k).total.toNat = (chunksOf script).length ∧
      clamp (chunkMessage script k).index.toNat 1 (chunkMessage script k).total.toNat = k + 1 := by
  have htotal : (chunkMessage script k).total.toNat = (chunksOf script).length := by
    simp only [chunkMessage, UInt16.toNat_ofNat']; omega
  have hindex : (chunkMessage script k).index.toNat = k + 1 := by
    simp only [chunkMessage, UInt16.toNat_ofNat']; omega
  refine ⟨htotal, ?_⟩
  rw [htotal, hindex, clamp]
  omega

variable {b : Option (ScriptChunks α)}

/-- **A chunk that does not complete the count is stored.** -/
theorem requestCode_stores (len : LuaLength α) (h : Collected script K H (storedChunks b))
    (hn : (chunksOf script).length ≤ 65535) (hk : k < (chunksOf script).length)
    (hcard : (K ∪ (insert k H).image (· + 1)).card ≠ (chunksOf script).length) :
    ∃ b', requestCode len true b (chunkMessage script k) = (some b', none) ∧
      Collected script K (insert k H) b'.chunks := by
  obtain ⟨htotal, hclamp⟩ := chunkMessage_numbers hn hk
  have hins := h.insert k
  refine ⟨⟨_, (chunkMessage script k).total.toNat⟩, ?_, hins⟩
  simp only [requestCode, Bool.not_true, Bool.false_eq_true, if_false, hclamp]
  rw [if_neg]
  · rfl
  · rw [htotal]
    exact fun hc => hcard (hins.count.symm.trans hc)

/-- **The last chunk completes the script**, if the table then holds its chunks only. -/
theorem requestCode_completes (len : LuaLength α) (h : Collected script K H (storedChunks b))
    (hn : (chunksOf script).length ≤ 65535) (hk : k < (chunksOf script).length)
    (hH : insert k H = Finset.range (chunksOf script).length)
    (hK : ∀ i ∈ K, i ∈ Finset.Ico 1 ((chunksOf script).length + 1)) :
    requestCode len true b (chunkMessage script k) = (none, some script) := by
  obtain ⟨htotal, hclamp⟩ := chunkMessage_numbers hn hk
  have hins := h.insert k
  have hcount := hins.count
  rw [hH] at hins
  rw [hH, image_succ_range, Finset.union_eq_right.2 hK, Nat.card_Ico, Nat.add_sub_cancel] at hcount
  have hdata : (chunkMessage script k).data = (chunksOf script).getD k [] := rfl
  simp only [requestCode, Bool.not_true, Bool.false_eq_true, if_false, hclamp, hdata]
  rw [if_pos (hcount.trans htotal.symm), hins.concat len hK]

/-! ## One upload -/

/-- The chunks handled before chunk `k`: those that came while the target was valid. -/
def Upload.handled (u : Upload α) (k : ℕ) : Finset ℕ := (Finset.range k).filter fun j => u.valid j = true

theorem Upload.handled_succ (u : Upload α) (k : ℕ) :
    u.handled (k + 1) = if u.valid k then insert k (u.handled k) else u.handled k := by
  rw [Upload.handled, Finset.range_add_one, Finset.filter_insert]
  rfl

theorem Upload.handled_mono (u : Upload α) {j k : ℕ} (h : j ≤ k) : u.handled j ⊆ u.handled k :=
  Finset.filter_subset_filter _ (Finset.range_mono h)

theorem Upload.messages_cons (u : Upload α) (hk : k < (chunksOf u.script).length) :
    u.messages k = (u.valid k, chunkMessage u.script k) :: u.messages (k + 1) := by
  have hlen : (chunksOf u.script).length - k = (chunksOf u.script).length - (k + 1) + 1 := by omega
  rw [Upload.messages, hlen, List.range'_succ, List.map_cons]
  rfl

theorem Upload.messages_end (u : Upload α) (hk : (chunksOf u.script).length ≤ k) : u.messages k = [] := by
  rw [Upload.messages, Nat.sub_eq_zero_of_le hk]; rfl

variable {u : Upload α}

theorem requestCodes_cons (len : LuaLength α) (b : Option (ScriptChunks α)) (valid : Bool)
    (m : ChunkMessage α) (ms : List (Bool × ChunkMessage α)) :
    requestCodes len b ((valid, m) :: ms) =
      ((requestCodes len (requestCode len valid b m).1 ms).1,
        (requestCode len valid b m).2.toList ++ (requestCodes len (requestCode len valid b m).1 ms).2) := rfl

/-- A message that compiles nothing. -/
theorem requestCodes_cons_none {len : LuaLength α} {b b' : Option (ScriptChunks α)} {valid : Bool}
    {m : ChunkMessage α} (h : requestCode len valid b m = (b', none))
    (ms : List (Bool × ChunkMessage α)) :
    requestCodes len b ((valid, m) :: ms) = requestCodes len b' ms := by
  rw [requestCodes_cons, h]
  rfl

/-- A message that completes a script. -/
theorem requestCodes_cons_some {len : LuaLength α} {b b' : Option (ScriptChunks α)} {valid : Bool}
    {m : ChunkMessage α} {script : List α} (h : requestCode len valid b m = (b', some script))
    (ms : List (Bool × ChunkMessage α)) :
    requestCodes len b ((valid, m) :: ms) =
      ((requestCodes len b' ms).1, script :: (requestCodes len b' ms).2) := by
  rw [requestCodes_cons, h]
  rfl

theorem requestCode_invalid (len : LuaLength α) (b : Option (ScriptChunks α)) (m : ChunkMessage α) :
    requestCode len false b m = (b, none) := rfl

/-- No message is handled: nothing happens. -/
theorem requestCodes_invalid (len : LuaLength α)
    (hinvalid : ∀ j < (chunksOf u.script).length, u.valid j = false) :
    ∀ (m k : ℕ), k + m = (chunksOf u.script).length → ∀ b, requestCodes len b (u.messages k) = (b, []) := by
  intro m
  induction m with
  | zero => intro k hk b; rw [u.messages_end (by omega)]; rfl
  | succ m ih =>
    intro k hk b
    rw [u.messages_cons (by omega), hinvalid k (by omega),
      requestCodes_cons_none (requestCode_invalid len b _)]
    exact ih (k + 1) (by omega) b

/-- Too few chunks, with what is left over: nothing is compiled. -/
theorem requestCodes_few (len : LuaLength α) (hn : (chunksOf u.script).length ≤ 65535)
    (hfew : (K ∪ (u.handled (chunksOf u.script).length).image (· + 1)).card < (chunksOf u.script).length) :
    ∀ (m k : ℕ), k + m = (chunksOf u.script).length → ∀ b,
      Collected u.script K (u.handled k) (storedChunks b) →
      (requestCodes len b (u.messages k)).2 = [] := by
  intro m
  induction m with
  | zero => intro k hk b _; rw [u.messages_end (by omega)]; rfl
  | succ m ih =>
    intro k hk b hb
    have hsucc := u.handled_succ k
    rw [u.messages_cons (by omega)]
    cases hv : u.valid k with
    | false =>
      rw [hv, if_neg (by simp)] at hsucc
      rw [requestCodes_cons_none (requestCode_invalid len b _)]
      exact ih (k + 1) (by omega) b (hsucc ▸ hb)
    | true =>
      rw [hv, if_pos rfl] at hsucc
      have hsub : K ∪ (insert k (u.handled k)).image (· + 1) ⊆
          K ∪ (u.handled (chunksOf u.script).length).image (· + 1) := by
        rw [← hsucc]
        exact Finset.union_subset_union_right (Finset.image_subset_image (u.handled_mono (by omega)))
      have hlt : k < (chunksOf u.script).length := by omega
      have hcard := (Finset.card_le_card hsub).trans_lt hfew
      obtain ⟨b', hb', hcoll⟩ := requestCode_stores len hb hn hlt hcard.ne
      rw [requestCodes_cons_none hb']
      exact ih (k + 1) (by omega) (some b') (hsucc ▸ hcoll)

/-- **All chunks handled**, and none left over with the index of the last or a larger one: the
script is compiled when the last chunk comes, and only then. -/
theorem requestCodes_all (len : LuaLength α) (hn : (chunksOf u.script).length ≤ 65535)
    (hvalid : ∀ j < (chunksOf u.script).length, u.valid j = true)
    (hK : ∀ i ∈ K, i ∈ Finset.Ico 1 (chunksOf u.script).length) :
    ∀ (m k : ℕ), k + (m + 1) = (chunksOf u.script).length → ∀ b,
      Collected u.script K (Finset.range k) (storedChunks b) →
      (requestCodes len b (u.messages k)).2 = [u.script] := by
  intro m
  induction m with
  | zero =>
    intro k hk b hb
    rw [u.messages_cons (by omega), u.messages_end (by omega), hvalid k (by omega)]
    have hlast : insert k (Finset.range k) = Finset.range (chunksOf u.script).length := by
      rw [← hk, ← Finset.range_add_one]
    have hK' : ∀ i ∈ K, i ∈ Finset.Ico 1 ((chunksOf u.script).length + 1) :=
      fun i hi => Finset.Ico_subset_Ico_right (Nat.le_succ _) (hK i hi)
    rw [requestCodes_cons_some (requestCode_completes len hb hn (by omega) hlast hK')]
    rfl
  | succ m ih =>
    intro k hk b hb
    rw [u.messages_cons (by omega), hvalid k (by omega)]
    -- the index of the last chunk is not there yet
    have hsub : K ∪ (insert k (Finset.range k)).image (· + 1) ⊆
        Finset.Ico 1 (chunksOf u.script).length := by
      rw [← Finset.range_add_one, image_succ_range]
      refine Finset.union_subset hK (Finset.Ico_subset_Ico_right (by omega))
    have hlt : k < (chunksOf u.script).length := by omega
    have hcard := Finset.card_le_card hsub
    rw [Nat.card_Ico] at hcard
    obtain ⟨b', hb', hcoll⟩ := requestCode_stores len hb hn hlt (by omega)
    rw [requestCodes_cons_none hb']
    rw [← Finset.range_add_one] at hcoll
    exact ih (k + 1) (by omega) (some b') hcoll

namespace Receiver

/-! ## Runs -/

/-- **What an upload may find in the table.** Either none of its messages is handled; or all
are, and no chunk is left over at the index of its last chunk or a larger one; or the chunks
left over and those handled have fewer indices than the upload has chunks. (The last two
for uploads whose number of chunks fits in 16 bits.) -/
def CleanStart (s : Receiver α) (u : Upload α) : Prop :=
  (∀ k < (chunksOf u.script).length, u.valid k = false) ∨
  ((chunksOf u.script).length ≤ 65535 ∧
    ((∀ k < (chunksOf u.script).length, u.valid k = true) ∧
        (∀ i ∈ storedChunks s.buffer, 1 ≤ i ∧ i < (chunksOf u.script).length) ∨
      ((storedChunks s.buffer).keys.toFinset ∪
        (u.handled (chunksOf u.script).length).image (· + 1)).card < (chunksOf u.script).length))

/-- What an upload that starts so compiles: its script if all messages are handled, else nothing. -/
theorem requestCodes_cleanStart (len : LuaLength α) {s : Receiver α} (h : s.CleanStart u) :
    ((∀ k < (chunksOf u.script).length, u.valid k = true) →
        (requestCodes len s.buffer (u.messages 0)).2 = [u.script]) ∧
      ∀ script ∈ (requestCodes len s.buffer (u.messages 0)).2, script = u.script := by
  have hpos : 0 < (chunksOf u.script).length := chunksOf_pos u.nonempty
  have hstart := Collected.start u.script (storedChunks s.buffer)
  rcases h with hinvalid | ⟨hsize, ⟨hvalid, hleft⟩ | hfew⟩
  · rw [requestCodes_invalid len hinvalid _ 0 (Nat.zero_add _)]
    refine ⟨fun hvalid => ?_, fun _ h => absurd h List.not_mem_nil⟩
    have hboth := (hinvalid 0 hpos).symm.trans (hvalid 0 hpos)
    cases hboth
  · obtain ⟨m, hm⟩ : ∃ m, 0 + (m + 1) = (chunksOf u.script).length :=
      ⟨(chunksOf u.script).length - 1, by omega⟩
    have hK : ∀ i ∈ (storedChunks s.buffer).keys.toFinset, i ∈ Finset.Ico 1 (chunksOf u.script).length := by
      intro i hi
      rw [List.mem_toFinset, ← AList.mem_keys] at hi
      exact Finset.mem_Ico.2 (hleft i hi)
    rw [requestCodes_all len hsize hvalid hK m 0 hm s.buffer (by rwa [Finset.range_zero])]
    exact ⟨fun _ => rfl, fun script h => List.mem_singleton.1 h⟩
  · have hzero : u.handled 0 = ∅ := rfl
    rw [requestCodes_few len hsize hfew _ 0 (Nat.zero_add _) s.buffer (by rwa [hzero])]
    refine ⟨fun hvalid => ?_, fun _ h => absurd h List.not_mem_nil⟩
    -- all chunks would be enough
    have hall : u.handled (chunksOf u.script).length = Finset.range (chunksOf u.script).length :=
      Finset.filter_true_of_mem fun j hj => hvalid j (Finset.mem_range.1 hj)
    have hle : ((u.handled (chunksOf u.script).length).image (· + 1)).card ≤
        ((storedChunks s.buffer).keys.toFinset ∪
          (u.handled (chunksOf u.script).length).image (· + 1)).card :=
      Finset.card_le_card Finset.subset_union_right
    have hcard : ((Finset.range (chunksOf u.script).length).image (· + 1)).card =
        (chunksOf u.script).length := by
      rw [image_succ_range, Nat.card_Ico, Nat.add_sub_cancel]
    rw [hall] at hle hfew
    omega

theorem step_eq (len : LuaLength α) (s : Receiver α) (u : Upload α) :
    step len s u = some ⟨(requestCodes len s.buffer (u.messages 0)).1,
      (u, (requestCodes len s.buffer (u.messages 0)).2) :: s.done⟩ := rfl

/-- An upload that compiles nothing but its script, and that if all its messages are handled. -/
theorem Intact.cons {s : Receiver α} (hs : s.Intact) {scripts : List (List α)}
    (hfull : (∀ k < (chunksOf u.script).length, u.valid k = true) → scripts = [u.script])
    (hown : ∀ script ∈ scripts, script = u.script) (b : Option (ScriptChunks α)) :
    Intact ⟨b, (u, scripts) :: s.done⟩ := by
  intro p hp
  rcases List.mem_cons.1 hp with rfl | hp
  · exact ⟨fun script hscript => ⟨_, List.mem_cons_self, (hown script hscript).symm⟩, hfull⟩
  · obtain ⟨hsome, hvalid⟩ := hs p hp
    refine ⟨fun script hscript => ?_, hvalid⟩
    obtain ⟨q, hq, heq⟩ := hsome script hscript
    exact ⟨q, List.mem_cons_of_mem _ hq, heq⟩

/-- **One upload.** An upload that starts cleanly keeps all uploads intact. -/
theorem intact_step (len : LuaLength α) {s s' : Receiver α} (hs : s.Intact) (h : s.CleanStart u)
    (hstep : step len s u = some s') : s'.Intact := by
  obtain ⟨hfull, hown⟩ := requestCodes_cleanStart len h
  rw [step_eq, Option.some.injEq] at hstep
  rw [← hstep]
  exact hs.cons hfull hown _

/-- **Runs of uploads.** If every upload starts cleanly, all arrive intact. -/
theorem intact_run (len : LuaLength α) (us : List (Upload α))
    (h : Along (step len) CleanStart (init : Receiver α) us) :
    Always (step len) Intact (init : Receiver α) us :=
  always_of_along (fun _ h => h) (fun _ _ _ hs hc hstep => intact_step len hs hc hstep) us
    (fun _ h => absurd h List.not_mem_nil) h

/-! ## A stale chunk -/

/-- A table of strings ends somewhere. -/
theorem exists_border (t : ChunkTable α) : ∃ n, t.lookup (n + 1) = none := by
  refine ⟨t.keys.toFinset.sup id, ?_⟩
  rw [AList.lookup_eq_none, AList.mem_keys, ← List.mem_toFinset]
  intro h
  have := Finset.le_sup (f := id) h
  simp only [id] at this
  omega

/-- The least border. -/
def leastBorder (t : ChunkTable α) : ℕ := Nat.find (exists_border t)

theorem leastBorder_isBorder (t : ChunkTable α) : IsBorder t (leastBorder t) := by
  refine ⟨?_, Nat.find_spec (exists_border t)⟩
  rcases h : leastBorder t with _ | n
  · exact Or.inl rfl
  · have hlt : n < Nat.find (exists_border t) := by rw [leastBorder] at h; omega
    exact Or.inr (Option.isSome_iff_ne_none.2 (Nat.find_min (exists_border t) hlt))

/-- The length operator that answers the least border. -/
def leastLength : LuaLength α := ⟨leastBorder, leastBorder_isBorder⟩

/-- The same byte `n` times. -/
def repeated (c n : ℕ) (valid : ℕ → Bool) (hn : n ≠ 0) : Upload ℕ :=
  ⟨List.replicate n c, valid, by rwa [Ne, List.replicate_eq_nil_iff]⟩

theorem length_chunksOf_repeated (c n : ℕ) (valid : ℕ → Bool) (hn : n ≠ 0) :
    (chunksOf (repeated c n valid hn).script).length = (n + (chunkSize - 1)) / chunkSize := by
  rw [length_chunksOf, repeated, List.length_replicate]

/-- Three chunks of `a`, of which the target misses the last. -/
def cutShort : Upload ℕ := repeated 97 128001 (fun k => decide (k < 2)) (by omega)

/-- Two chunks of `b`. -/
def nextUpload : Upload ℕ := repeated 98 64001 (fun _ => true) (by omega)

theorem cutShort_chunks : (chunksOf cutShort.script).length = 3 := length_chunksOf_repeated ..

theorem nextUpload_chunks : (chunksOf nextUpload.script).length = 2 := length_chunksOf_repeated ..

/-- All messages of an upload are handled, on an empty table. -/
theorem intact_nextUpload : Always (step leastLength) Intact (init : Receiver ℕ) [nextUpload] := by
  refine intact_run leastLength _ ((along_cons (step_eq ..) _).2 ⟨Or.inr ⟨?_, Or.inl ⟨?_, ?_⟩⟩, trivial⟩)
  · rw [nextUpload_chunks]; decide
  · exact fun _ _ => rfl
  · intro i hi
    exact absurd hi (AList.notMem_empty i)

/-- After the upload that was cut short, its first two chunks are left over. -/
theorem cutShort_leftover (len : LuaLength ℕ) :
    ∃ b, requestCodes len none (cutShort.messages 0) = (some b, []) ∧
      Collected cutShort.script ∅ {0, 1} b.chunks := by
  have hn := cutShort_chunks
  have hempty : Collected cutShort.script ∅ ∅ (storedChunks none) := Collected.start _ ∅
  obtain ⟨b₁, hb₁, hcoll₁⟩ := requestCode_stores (k := 0) len hempty (by omega) (by omega)
    (by rw [hn]; decide)
  obtain ⟨b₂, hb₂, hcoll₂⟩ := requestCode_stores (b := some b₁) (k := 1) len hcoll₁ (by omega) (by omega)
    (by rw [hn]; decide)
  refine ⟨b₂, ?_, ?_⟩
  · rw [cutShort.messages_cons (by omega), cutShort.messages_cons (by omega),
      cutShort.messages_cons (by omega), cutShort.messages_end (by omega)]
    have hv₀ : cutShort.valid 0 = true := rfl
    have hv₁ : cutShort.valid (0 + 1) = true := rfl
    have hv₂ : cutShort.valid (0 + 1 + 1) = false := rfl
    rw [hv₀, hv₁, hv₂]
    rw [requestCodes_cons_none hb₁, requestCodes_cons_none hb₂,
      requestCodes_cons_none (requestCode_invalid ..)]
    rfl
  · rwa [Finset.pair_comm]

/-- The first of two chunks meets an old second one. -/
theorem requestCode_mixes (len : LuaLength α) {old : List α} {b : ScriptChunks α}
    (h : Collected old ∅ {0, 1} b.chunks) (hn : (chunksOf script).length = 2) :
    requestCode len true (some b) (chunkMessage script 0) =
      (none, some ((chunksOf script).getD 0 [] ++ (chunksOf old).getD 1 [])) := by
  obtain ⟨htotal, hclamp⟩ := chunkMessage_numbers (by omega : (chunksOf script).length ≤ 65535)
    (by omega : 0 < (chunksOf script).length)
  obtain ⟨t, ht⟩ : ∃ t, b.chunks.insert 1 ((chunksOf script).getD 0 []) = t := ⟨_, rfl⟩
  have hkeys : ∀ i, i ∈ t ↔ 1 ≤ i ∧ i < 2 + 1 := by
    intro i
    have hold : i ∈ b.chunks ↔ i = 1 ∨ i = 2 := by
      rw [AList.mem_keys, ← List.mem_toFinset, h.keys]
      simp
    rw [← ht, AList.mem_insert, hold]
    omega
  have hcount : tableCount t = 2 := by
    have hset : t.keys.toFinset = Finset.Ico 1 3 := by
      ext i
      rw [List.mem_toFinset, ← AList.mem_keys, hkeys, Finset.mem_Ico]
    rw [tableCount, ← List.toFinset_card_of_nodup t.keys_nodup, hset, Nat.card_Ico]
  have hfirst : t.lookup 1 = some ((chunksOf script).getD 0 []) := by
    rw [← ht]; exact AList.lookup_insert _
  have hsecond : t.lookup 2 = some ((chunksOf old).getD 1 []) := by
    rw [← ht, AList.lookup_insert_ne (by omega)]
    exact h.data 1 (by simp)
  have hconcat : tableConcat len t =
      some ((chunksOf script).getD 0 [] ++ (chunksOf old).getD 1 []) := by
    rw [tableConcat, length_of_keys len hkeys]
    simp [List.range_succ, hfirst, hsecond]
  have hdata : (chunkMessage script 0).data = (chunksOf script).getD 0 [] := rfl
  simp only [requestCode, Bool.not_true, Bool.false_eq_true, if_false, hclamp, hdata, storedChunks, ht]
  rw [if_pos (by rw [hcount, htotal, hn]), hconcat]

theorem length_getD_chunksOf {k : ℕ} (hk : chunkSize * (k + 1) ≤ script.length) :
    ((chunksOf script).getD k []).length = chunkSize := by
  have hlt : k < (chunksOf script).length := by
    rw [length_chunksOf]
    unfold chunkSize at hk ⊢
    omega
  rw [List.getD_eq_getElem?_getD, List.getElem?_eq_getElem hlt, Option.getD_some]
  simp only [chunksOf, List.getElem_map, List.getElem_range, List.length_take, List.length_drop]
  unfold chunkSize at hk ⊢
  omega

theorem length_repeated (c n : ℕ) (valid : ℕ → Bool) (hn : n ≠ 0) :
    (repeated c n valid hn).script.length = n := List.length_replicate

theorem cutShort_length : cutShort.script.length = 128001 := length_repeated ..

theorem nextUpload_length : nextUpload.script.length = 64001 := length_repeated ..

/-- **Chunks of two uploads are mixed**: the first two messages of one upload and the first of
the next make a script that nobody sent. -/
theorem stale_mix : ¬ Always (step leastLength) Intact (init : Receiver ℕ) [cutShort, nextUpload] := by
  intro h
  obtain ⟨b, hcut, hcoll⟩ := cutShort_leftover leastLength
  have hmix := requestCode_mixes leastLength hcoll nextUpload_chunks
  set mix := (chunksOf nextUpload.script).getD 0 [] ++ (chunksOf cutShort.script).getD 1 [] with hmixdef
  have hmixlen : mix.length = 128000 := by
    rw [hmixdef, List.length_append,
      length_getD_chunksOf (by rw [nextUpload_length]; unfold chunkSize; omega),
      length_getD_chunksOf (by rw [cutShort_length]; unfold chunkSize; omega)]
    rfl
  obtain ⟨b', rest, hnext⟩ : ∃ b' rest,
      requestCodes leastLength (some b) (nextUpload.messages 0) = (b', mix :: rest) := by
    have hvalid : nextUpload.valid 0 = true := rfl
    rw [nextUpload.messages_cons (by rw [nextUpload_chunks]; omega), hvalid,
      requestCodes_cons_some hmix]
    exact ⟨_, _, rfl⟩
  have hstep₁ := step_eq leastLength init cutShort
  have hstep₂ := step_eq leastLength ⟨some b, [(cutShort, [])]⟩ nextUpload
  have hbuffer : (init : Receiver ℕ).buffer = none := rfl
  rw [hbuffer, hcut] at hstep₁
  simp only [hnext] at hstep₂
  have hlast := ((h.2 _ hstep₁).2 _ hstep₂).head
  obtain ⟨q, hq, hscript⟩ := (hlast _ List.mem_cons_self).1 _ List.mem_cons_self
  have hlen := (congrArg List.length hscript).trans hmixlen
  simp only [List.mem_cons, List.not_mem_nil, or_false] at hq
  rcases hq with rfl | rfl
  · exact absurd (nextUpload_length.symm.trans hlen) (by omega)
  · exact absurd (cutShort_length.symm.trans hlen) (by omega)

end Receiver

end JSChip

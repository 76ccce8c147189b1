import JSChip.Proof.Upload
import JSChip.Spec.Assembly

/-!
# Chunks in any order, players in any interleaving

* `round_trip`: **the chunks of a script, delivered once each in any order, complete it with the
  last one**, in both handlers.
* `undisturbed`: **what a handler has for a player depends on that player's messages to that
  handler only**, whatever the messages are.
-/

namespace JSChip

variable {α P : Type} {script : List α} {len : LuaLength α}

/-! ## What is sent -/

/-- **What the client sends** for a script: the number of chunks, their positions, and chunks that
are not empty, not too long, and make up the script. -/
structure Splits (script : List α) : Prop where
  total : ∀ m ∈ uploadCode script,
    m.total.toNat = (script.length + (chunkSize - 1)) / chunkSize
  index : (uploadCode script).map (·.index.toNat) =
    List.range' 1 ((script.length + (chunkSize - 1)) / chunkSize)
  nonempty : ∀ m ∈ uploadCode script, m.data ≠ []
  bounded : ∀ m ∈ uploadCode script, m.data.length ≤ chunkSize
  join : ((uploadCode script).map (·.data)).flatten = script

theorem getD_chunksOf {k : ℕ} (hk : k < (chunksOf script).length) :
    (chunksOf script).getD k [] = (script.drop (chunkSize * k)).take chunkSize := by
  rw [List.getD_eq_getElem?_getD, List.getElem?_eq_getElem hk, Option.getD_some]
  simp [chunksOf]

theorem uploadCode_index (k : ℕ) (h : (chunksOf script).length ≤ 65535)
    (hk : k < (chunksOf script).length) : (chunkMessage script k).index.toNat = k + 1 := by
  simp only [chunkMessage, UInt16.toNat_ofNat']
  omega

theorem splits (h : (chunksOf script).length ≤ 65535) : Splits script := by
  have hmem : ∀ m ∈ uploadCode script, ∃ k < (chunksOf script).length, chunkMessage script k = m := by
    intro m hm
    obtain ⟨k, hk, rfl⟩ := List.mem_map.1 hm
    exact ⟨k, List.mem_range.1 hk, rfl⟩
  refine ⟨fun m hm => ?_, ?_, fun m hm => ?_, fun m hm => ?_, ?_⟩
  · obtain ⟨k, hk, rfl⟩ := hmem m hm
    rw [(chunkMessage_numbers h hk).1, length_chunksOf]
  · rw [uploadCode, List.map_map, ← length_chunksOf, List.range'_eq_map_range]
    refine List.map_congr_left fun k hk => ?_
    rw [Function.comp_apply, uploadCode_index k h (List.mem_range.1 hk), Nat.add_comm]
  · obtain ⟨k, hk, rfl⟩ := hmem m hm
    have hdata : (chunkMessage script k).data = (chunksOf script).getD k [] := rfl
    rw [length_chunksOf] at hk
    rw [hdata, getD_chunksOf (by rw [length_chunksOf]; exact hk)]
    refine List.ne_nil_of_length_pos ?_
    rw [List.length_take, List.length_drop]
    unfold chunkSize at hk ⊢
    omega
  · obtain ⟨k, hk, rfl⟩ := hmem m hm
    have hdata : (chunkMessage script k).data = (chunksOf script).getD k [] := rfl
    rw [hdata, getD_chunksOf hk, List.length_take]
    exact Nat.min_le_left _ _
  · rw [uploadCode, List.map_map]
    have hdata : (fun m => m.data) ∘ chunkMessage script = fun k => (chunksOf script).getD k [] := rfl
    rw [hdata, map_getD_range, chunksOf_flatten]

/-! ## Any order -/

/-- With a valid target, both handlers do the same. -/
theorem handle_eq (handler : CodeHandler) (b : Option (ScriptChunks α)) (m : ChunkMessage α) :
    handler.handle len true b m = requestCode len true b m := by
  cases handler with
  | requestCode => rfl
  | validateCode =>
    have hvalid : requestCode len true b m = validateCode len b m := by
      unfold requestCode validateCode
      rfl
    exact hvalid.symm

variable {handler : CodeHandler} {b b' : Option (ScriptChunks α)} {m : ChunkMessage α}

theorem assemble_cons (handler : CodeHandler) (b : Option (ScriptChunks α)) (m : ChunkMessage α)
    (ms : List (ChunkMessage α)) :
    handler.assemble len b (m :: ms) =
      ((handler.assemble len (handler.handle len true b m).1 ms).1,
        (handler.handle len true b m).2.toList ++
          (handler.assemble len (handler.handle len true b m).1 ms).2) := rfl

theorem assemble_cons_none (h : requestCode len true b m = (b', none)) (ms : List (ChunkMessage α)) :
    handler.assemble len b (m :: ms) = handler.assemble len b' ms := by
  rw [assemble_cons, handle_eq, h]
  rfl

/-- **Chunks that are not all** are stored. `H` are the ones handled before, `ks` come next. -/
theorem assemble_some (hn : (chunksOf script).length ≤ 65535) :
    ∀ (ks : List ℕ) (H : Finset ℕ) (b : Option (ScriptChunks α)),
      Collected script ∅ H (storedChunks b) → ks.Nodup → (∀ k ∈ ks, k ∉ H) →
      (∀ k ∈ ks, k < (chunksOf script).length) → H.card + ks.length < (chunksOf script).length →
      ∃ b', handler.assemble len b (ks.map (chunkMessage script)) = (b', []) ∧
        Collected script ∅ (H ∪ ks.toFinset) (storedChunks b') := by
  intro ks
  induction ks with
  | nil =>
    intro H b hb _ _ _ _
    exact ⟨b, rfl, by simpa using hb⟩
  | cons k ks ih =>
    intro H b hb hnd hnew hlt hfew
    obtain ⟨hk, hnd⟩ := List.nodup_cons.1 hnd
    have hkH : k ∉ H := hnew k List.mem_cons_self
    rw [List.length_cons] at hfew
    have hcard : (insert k H).card = H.card + 1 := Finset.card_insert_of_notMem hkH
    have hindices : ((∅ : Finset ℕ) ∪ (insert k H).image (· + 1)).card = H.card + 1 := by
      rw [Finset.empty_union, Finset.card_image_of_injective _ (add_left_injective 1), hcard]
    obtain ⟨b₁, hb₁, hcoll⟩ := requestCode_stores len hb hn (hlt k List.mem_cons_self) (by omega)
    obtain ⟨b', hrest, hcoll'⟩ := ih (insert k H) (some b₁) hcoll hnd
      (fun j hj => by
        rw [Finset.mem_insert, not_or]
        refine ⟨?_, hnew j (List.mem_cons_of_mem _ hj)⟩
        rintro rfl
        exact hk hj)
      (fun j hj => hlt j (List.mem_cons_of_mem _ hj)) (by omega)
    refine ⟨b', ?_, ?_⟩
    · rw [List.map_cons, assemble_cons_none hb₁, hrest]
    · rw [List.toFinset_cons, Finset.union_insert, ← Finset.insert_union]
      exact hcoll'

theorem assemble_append (handler : CodeHandler) (ms : List (ChunkMessage α)) (m : ChunkMessage α)
    {scripts : List (List α)} (h : handler.assemble len b ms = (b', scripts)) :
    handler.assemble len b (ms ++ [m]) =
      ((handler.handle len true b' m).1, scripts ++ (handler.handle len true b' m).2.toList) := by
  induction ms generalizing b scripts with
  | nil =>
    cases h
    rw [List.nil_append, assemble_cons]
    simp [CodeHandler.assemble]
  | cons m₀ ms ih =>
    rw [assemble_cons] at h
    cases h
    rw [List.cons_append, assemble_cons, ih rfl, List.append_assoc]

/-- **The script is put together** by the last message and only by it, and the entry is gone. -/
def Reassembles (len : LuaLength α) (handler : CodeHandler) (script : List α)
    (ms : List (ChunkMessage α)) : Prop :=
  handler.assemble len none ms = (none, [script]) ∧
    ∀ before m, ms = before ++ [m] → (handler.assemble len none before).2 = [] ∧
      handler.handle len true (handler.assemble len none before).1 m = (none, some script)

/-- The positions, in any order. -/
theorem exists_positions {ms : List (ChunkMessage α)} (h : ms.Perm (uploadCode script)) :
    ∃ ks : List ℕ, ms = ks.map (chunkMessage script) ∧
      ks.Perm (List.range (chunksOf script).length) := by
  have hcomp : Relation.Comp (fun l k => l = List.map (chunkMessage script) k) List.Perm ms
      (List.range (chunksOf script).length) := by
    rw [List.eq_map_comp_perm]
    exact h
  obtain ⟨ks, hks, hperm⟩ := hcomp
  exact ⟨ks, hks, hperm⟩

theorem reassembles (len : LuaLength α) (handler : CodeHandler) (hne : script ≠ [])
    (hn : (chunksOf script).length ≤ 65535) {ms : List (ChunkMessage α)}
    (hms : ms.Perm (uploadCode script)) : Reassembles len handler script ms := by
  obtain ⟨ks, rfl, hperm⟩ := exists_positions hms
  have hpos := chunksOf_pos hne
  have hnd : ks.Nodup := hperm.nodup_iff.2 List.nodup_range
  have hlength : ks.length = (chunksOf script).length := by rw [hperm.length_eq, List.length_range]
  have hks : ks ≠ [] := by
    rintro rfl
    simp at hlength
    omega
  -- all but the last, and the last
  obtain ⟨before, k, rfl⟩ : ∃ before k, ks = before ++ [k] :=
    ⟨ks.dropLast, ks.getLast hks, (List.dropLast_append_getLast hks).symm⟩
  rw [List.length_append, List.length_singleton] at hlength
  have hlt : ∀ j ∈ before ++ [k], j < (chunksOf script).length := by
    intro j hj
    exact List.mem_range.1 (hperm.mem_iff.1 hj)
  have hempty : Collected script ∅ ∅ (storedChunks none) := Collected.start script ∅
  obtain ⟨b', hbefore, hcoll⟩ := assemble_some hn before ∅ none hempty
    (List.nodup_append.1 hnd).1 (fun _ _ => Finset.notMem_empty _)
    (fun j hj => hlt j (List.mem_append_left _ hj)) (by simp; omega)
  rw [Finset.empty_union] at hcoll
  have hall : insert k before.toFinset = Finset.range (chunksOf script).length := by
    ext j
    have hj := hperm.mem_iff (a := j)
    simp only [List.mem_append, List.mem_singleton, List.mem_range] at hj
    rw [Finset.mem_insert, List.mem_toFinset, Finset.mem_range, ← hj]
    exact or_comm
  have hlast := requestCode_completes len hcoll hn (hlt k (by simp)) hall nofun
  have hlast' : handler.handle len true b' (chunkMessage script k) = (none, some script) :=
    (handle_eq handler b' _).trans hlast
  rw [List.map_append, List.map_singleton]
  refine ⟨?_, fun ms m heq => ?_⟩
  · rw [assemble_append handler _ _ hbefore, hlast']
    rfl
  · have hone : [chunkMessage script k].length = [m].length := by
      rw [List.length_singleton, List.length_singleton]
    obtain ⟨hinit, hend⟩ := List.append_inj' heq hone
    rw [List.singleton_inj] at hend
    rw [← hinit, ← hend, hbefore]
    exact ⟨rfl, hlast'⟩

/-- **Round trip.** The messages of a script describe it, and any order of them puts it together,
in both handlers. -/
theorem round_trip (len : LuaLength α) (script : List α) (hne : script ≠ [])
    (hn : (script.length + (chunkSize - 1)) / chunkSize ≤ 65535) :
    Splits script ∧ ∀ (handler : CodeHandler) (ms : List (ChunkMessage α)),
      ms.Perm (uploadCode script) → Reassembles len handler script ms := by
  rw [← length_chunksOf] at hn
  exact ⟨splits hn, fun handler _ hms => reassembles len handler hne hn hms⟩

/-- The chunks of a script that is one byte over and over. -/
theorem data_replicate {n k : ℕ} {x : α} (hk : k < (chunksOf (List.replicate n x)).length) :
    (chunkMessage (List.replicate n x) k).data =
      List.replicate (min chunkSize (n - chunkSize * k)) x := by
  have hdata : (chunkMessage (List.replicate n x) k).data =
      (chunksOf (List.replicate n x)).getD k [] := rfl
  rw [hdata, getD_chunksOf hk, List.drop_replicate, List.take_replicate]

/-- One byte more than fits in a chunk. -/
def longScript : List ℕ := List.replicate 64001 97

theorem length_longScript : (chunksOf longScript).length = 2 := by
  rw [length_chunksOf, longScript, List.length_replicate, chunkSize]

theorem uploadCode_longScript :
    uploadCode longScript = [chunkMessage longScript 0, chunkMessage longScript 1] := by
  rw [uploadCode, length_longScript]
  simp only [List.range_succ, List.range_zero, List.nil_append, List.map_cons,
    List.map_nil, List.cons_append]

/-- Its second chunk is one byte, and may arrive first. -/
theorem longScript_trip : Splits longScript ∧
    (chunkMessage longScript 0).data = List.replicate 64000 97 ∧
    (chunkMessage longScript 1).data = [97] ∧
    ∀ handler, Reassembles Receiver.leastLength handler longScript
      [chunkMessage longScript 1, chunkMessage longScript 0] := by
  have hlength := length_longScript
  have hne : longScript ≠ [] := by
    rintro hnil
    rw [hnil] at hlength
    cases hlength
  have hn : (longScript.length + (chunkSize - 1)) / chunkSize ≤ 65535 := by
    rw [← length_chunksOf, hlength]
    omega
  have hswap : [chunkMessage longScript 1, chunkMessage longScript 0].Perm (uploadCode longScript) := by
    rw [uploadCode_longScript]
    exact List.Perm.swap _ _ _
  have hfirst : min chunkSize (64001 - chunkSize * 0) = 64000 := rfl
  have hsecond : min chunkSize (64001 - chunkSize * 1) = 1 := rfl
  rw [longScript] at hlength
  obtain ⟨hsplits, hany⟩ := round_trip Receiver.leastLength longScript hne hn
  refine ⟨hsplits, ?_, ?_, fun handler => hany handler _ hswap⟩
  · rw [longScript, data_replicate (by rw [hlength]; omega), hfirst]
  · rw [longScript, data_replicate (by rw [hlength]; omega), hsecond]
    rfl

/-! ## Any players -/

namespace Assembly

variable [DecidableEq P] {s t : Assembly α P} {ply : P}

/-- What a message completes, for its handler and player. -/
theorem scriptsOf_step (s : Assembly α P) (a : Arrival α P) :
    (step len s a).scriptsOf handler ply = s.scriptsOf handler ply ++
      if a.handler = handler ∧ a.ply = ply then
        (a.handler.handle len a.valid (s.scriptChunks a.handler a.ply) a.message).2.toList
      else [] := by
  unfold scriptsOf
  simp only [step, List.filter_append, List.map_append]
  congr 1
  cases (a.handler.handle len a.valid (s.scriptChunks a.handler a.ply) a.message).2 with
  | none => simp
  | some script =>
    simp only [Option.toList_some, List.map_cons, List.map_nil]
    split
    · rename_i h
      simp [h]
    · rename_i h
      rw [List.filter_cons_of_neg (by simpa using h)]
      rfl

/-- A message to another handler, or of another player, changes nothing. -/
theorem step_agree_of_other {a : Arrival α P} (h : ¬ (a.handler = handler ∧ a.ply = ply)) :
    Agree (step len s a) s handler ply := by
  refine ⟨?_, by rw [scriptsOf_step, if_neg h, List.append_nil]⟩
  simp only [step]
  rcases eq_or_ne handler a.handler with rfl | hhandler
  · have hply : ply ≠ a.ply := fun heq => h ⟨rfl, heq.symm⟩
    rw [Function.update_self, Function.update_of_ne hply]
  · rw [Function.update_of_ne hhandler]

/-- A message to the handler, of the player, does the same to the same. -/
theorem Agree.step {a : Arrival α P} (hst : Agree s t a.handler a.ply) :
    Agree (step len s a) (step len t a) a.handler a.ply := by
  refine ⟨?_, ?_⟩
  · simp only [Assembly.step, Function.update_self, hst.1]
  · rw [scriptsOf_step, scriptsOf_step, hst.1, hst.2]

theorem Agree.trans {u : Assembly α P} (hst : Agree s t handler ply) (htu : Agree t u handler ply) :
    Agree s u handler ply := ⟨hst.1.trans htu.1, hst.2.trans htu.2⟩

/-- **Messages that are not the player's to the handler can be deleted**, all or some of them. -/
theorem foldl_agree (keep : Arrival α P → Bool)
    (hkeep : ∀ a, a.handler = handler → a.ply = ply → keep a = true) :
    ∀ (as : List (Arrival α P)) {s t : Assembly α P}, Agree s t handler ply →
      Agree (as.foldl (step len) s) ((as.filter keep).foldl (step len) t) handler ply := by
  intro as
  induction as with
  | nil => intro s t hst; exact hst
  | cons a as ih =>
    intro s t hst
    by_cases ha : a.handler = handler ∧ a.ply = ply
    · obtain ⟨rfl, rfl⟩ := ha
      rw [List.filter_cons_of_pos (hkeep a rfl rfl)]
      exact ih hst.step
    · cases hk : keep a with
      | true =>
        rw [List.filter_cons_of_pos hk]
        refine ih ((step_agree_of_other ha).trans (hst.trans ?_))
        exact ⟨(step_agree_of_other ha).1.symm, (step_agree_of_other ha).2.symm⟩
      | false =>
        rw [List.filter_cons_of_neg (by simp [hk])]
        exact ih ((step_agree_of_other ha).trans hst)

/-- **Players do not interfere, nor do the handlers.** After any messages, each handler has the same
for a player as if the messages of all other players had not been sent, and the same as if no
message had been sent to the other handler. -/
theorem undisturbed (len : LuaLength α) (as : List (Arrival α P)) (n : ℕ) (ply : P)
    (handler : CodeHandler) :
    Agree (receive len (as.take n)) (receive len ((as.take n).filter (·.ply = ply))) handler ply ∧
      Agree (receive len (as.take n)) (receive len ((as.take n).filter (·.handler = handler)))
        handler ply := by
  refine ⟨foldl_agree _ (fun a _ hply => ?_) _ ⟨rfl, rfl⟩,
    foldl_agree _ (fun a hhandler _ => ?_) _ ⟨rfl, rfl⟩⟩
  · exact decide_eq_true hply
  · exact decide_eq_true hhandler

end Assembly

end JSChip

import JSChip.Proof.Upload
import JSChip.Spec.Network

/-!
# Does code reach the chip it was requested for?

* `Sync`: the uploads in flight are those after the compiled ones, the table holds the chunks
  of the first of them handled so far, and all of them are for the current target.
* `sync_step`: a step keeps this if a click on another chip waits until nothing is in flight
  (`QuietClick`).
* `delivered_run`: **then every upload is compiled and evaluated in the chip whose request it
  answers, and in no other.**
* `crossed_clicks`: a second click before the first request is answered sends the code to the
  wrong chip.
-/

namespace JSChip

open Machine

variable {α : Type}

theorem length_uploadCode (script : List α) : (uploadCode script).length = (chunksOf script).length := by
  rw [uploadCode, List.length_map, List.length_range]

section Numbered

variable {β : Type}

/-- The messages of uploads numbered from `c` on, in order, for any way to cut a script. -/
def numbered (cut : List α → List β) : ℕ → List (ℕ × List α) → List (ℕ × β)
  | _, [] => []
  | c, p :: ps => (cut p.2).map (fun m => (c, m)) ++ numbered cut (c + 1) ps

variable {cut : List α → List β}

theorem numbered_append (p : ℕ × List α) : ∀ (ps : List (ℕ × List α)) (c : ℕ),
    numbered cut c (ps ++ [p]) = numbered cut c ps ++ (cut p.2).map fun m => (c + ps.length, m) := by
  intro ps
  induction ps with
  | nil => intro c; simp [numbered]
  | cons q qs ih =>
    intro c
    have hc : c + (q :: qs).length = c + 1 + qs.length := by simp [Nat.add_comm, Nat.add_left_comm]
    rw [List.cons_append, numbered, ih, numbered, hc, List.append_assoc]

/-- Every upload has a message. -/
theorem exists_mem_numbered : ∀ (ps : List (ℕ × List α)) (c j : ℕ), j < ps.length →
    (∀ p ∈ ps, cut p.2 ≠ []) → ∃ m ∈ numbered cut c ps, m.1 = c + j := by
  intro ps
  induction ps with
  | nil => intro c j hj _; exact absurd hj (Nat.not_lt_zero _)
  | cons p ps ih =>
    intro c j hj hne
    rcases j with _ | j
    · obtain ⟨m, hm⟩ := List.exists_mem_of_ne_nil _ (hne p List.mem_cons_self)
      exact ⟨(c, m), List.mem_append_left _ (List.mem_map.2 ⟨m, hm, rfl⟩), rfl⟩
    · obtain ⟨m, hm, heq⟩ := ih (c + 1) j (by simpa using hj) fun q hq => hne q (List.mem_cons_of_mem _ hq)
      exact ⟨m, List.mem_append_right _ hm, by omega⟩

/-- After `k` messages of the first upload, its message `k` is next. -/
theorem drop_numbered {c k : ℕ} {p : ℕ × List α} (ps : List (ℕ × List α))
    (hk : k < (cut p.2).length) :
    (numbered cut c (p :: ps)).drop k = (c, (cut p.2)[k]) :: (numbered cut c (p :: ps)).drop (k + 1) := by
  have hlen : k < (numbered cut c (p :: ps)).length := by
    rw [numbered, List.length_append, List.length_map]
    omega
  rw [List.drop_eq_getElem_cons hlen]
  congr 1
  simp only [numbered]
  rw [List.getElem_append_left (by rw [List.length_map]; exact hk), List.getElem_map]

/-- After all messages of the first upload, the others remain. -/
theorem drop_numbered_all (c : ℕ) (p : ℕ × List α) (ps : List (ℕ × List α)) :
    (numbered cut c (p :: ps)).drop (cut p.2).length = numbered cut (c + 1) ps := by
  rw [numbered, ← List.length_map (fun m => (c, m)), List.drop_left]

end Numbered

/-- The messages of uploads in flight. -/
def flight (c : ℕ) (ps : List (ℕ × List α)) : List (ℕ × ChunkMessage α) := numbered uploadCode c ps

theorem flight_append (p : ℕ × List α) (ps : List (ℕ × List α)) (c : ℕ) :
    flight c (ps ++ [p]) = flight c ps ++ (uploadCode p.2).map fun m => (c + ps.length, m) :=
  numbered_append p ps c

theorem length_flight_cons (c : ℕ) (p : ℕ × List α) (ps : List (ℕ × List α)) :
    (flight c (p :: ps)).length = (chunksOf p.2).length + (flight (c + 1) ps).length := by
  rw [flight, numbered, List.length_append, List.length_map, length_uploadCode]
  rfl

/-- Every upload in flight has a message in flight. -/
theorem exists_mem_flight (ps : List (ℕ × List α)) (c j : ℕ) (hj : j < ps.length)
    (hpos : ∀ p ∈ ps, 0 < (chunksOf p.2).length) : ∃ m ∈ flight c ps, m.1 = c + j := by
  refine exists_mem_numbered ps c j hj fun p hp => ?_
  rw [← List.length_pos_iff, length_uploadCode]
  exact hpos p hp

theorem drop_flight {c k : ℕ} {p : ℕ × List α} (ps : List (ℕ × List α))
    (hk : k < (chunksOf p.2).length) :
    (flight c (p :: ps)).drop k = (c, chunkMessage p.2 k) :: (flight c (p :: ps)).drop (k + 1) := by
  have hk' : k < (uploadCode p.2).length := by rw [length_uploadCode]; exact hk
  have hget : (uploadCode p.2)[k] = chunkMessage p.2 k := by simp [uploadCode]
  rw [← hget]
  exact drop_numbered ps hk'

theorem drop_flight_all (c : ℕ) (p : ℕ × List α) (ps : List (ℕ × List α)) :
    (flight c (p :: ps)).drop (chunksOf p.2).length = flight (c + 1) ps := by
  rw [← length_uploadCode]
  exact drop_numbered_all c p ps

namespace Network

/-- A click on a chip other than the target comes when nothing of the player is in flight; and
the number of chunks of an upload fits in 16 bits. -/
def QuietClick (s : Network α) : Action α → Prop
  | .click chip => s.target = some chip ∨ s.toClient = [] ∧ s.toServer = []
  | .answer code => ∀ script ∈ code, (chunksOf script).length ≤ 65535
  | .deliver _ => True

/-- The script that is being received. -/
def current : List (ℕ × List α) → List α
  | [] => []
  | p :: _ => p.2

/-- **The invariant**: `ps` are the uploads in flight, and `k` messages of the first have
been handled. -/
structure Sync (s : Network α) (ps : List (ℕ × List α)) (k : ℕ) : Prop where
  answered : s.answered = s.compiled.map (fun c => (c.chip, c.script)) ++ ps
  flight : s.toServer = (flight s.compiled.length ps).drop k
  position : k = 0 ∨ k < (chunksOf (current ps)).length
  buffer : Collected (current ps) ∅ (Finset.range k) (storedChunks s.buffer)
  sizes : ∀ p ∈ ps, 0 < (chunksOf p.2).length ∧ (chunksOf p.2).length ≤ 65535
  uploads : ∀ p ∈ ps, s.target = some p.1
  requests : ∀ chip ∈ s.toClient, s.target = some chip
  evaluated : s.evaluated =
    (s.compiled.filter (·.hasBytecode)).map fun c => (c.chip, c.script)

variable {s s' : Network α} {ps : List (ℕ × List α)} {k : ℕ}

theorem init_sync : (init : Network α).Sync [] 0 :=
  ⟨rfl, rfl, Or.inl rfl, Collected.start _ ∅, fun _ h => absurd h List.not_mem_nil,
    fun _ h => absurd h List.not_mem_nil, fun _ h => absurd h List.not_mem_nil, rfl⟩

/-- Of the first upload in flight, a message is still to come. -/
theorem Sync.position_lt {p : ℕ × List α} (h : s.Sync (p :: ps) k) : k < (chunksOf p.2).length :=
  h.position.elim (fun hk => hk ▸ (h.sizes p List.mem_cons_self).1) id

theorem Sync.exists_message (h : s.Sync ps k) {j : ℕ} (hj : j < ps.length) :
    ∃ m ∈ s.toServer, m.1 = s.compiled.length + j := by
  rw [h.flight]
  rcases ps with _ | ⟨p, ps⟩
  · exact absurd hj (Nat.not_lt_zero _)
  · rcases j with _ | j
    · rw [drop_flight ps h.position_lt]
      exact ⟨_, List.mem_cons_self, rfl⟩
    · obtain ⟨m, hm, heq⟩ := exists_mem_flight ps (s.compiled.length + 1) j (by simpa using hj)
        fun q hq => (h.sizes q (List.mem_cons_of_mem _ hq)).1
      refine ⟨m, ?_, by omega⟩
      rw [← drop_flight_all s.compiled.length p ps] at hm
      exact (List.drop_sublist_drop_left _ h.position_lt.le).subset hm

theorem Sync.delivered (h : s.Sync ps k) : s.Delivered := by
  refine ⟨⟨ps, h.answered.symm⟩, fun j hj hnone => ?_, h.evaluated⟩
  by_contra hge
  rw [h.answered, List.length_append, List.length_map] at hj
  obtain ⟨m, hm, heq⟩ := h.exists_message (j := j - s.compiled.length) (by omega)
  exact hnone m hm (by omega)

/-- Nothing in flight: no upload is. -/
theorem Sync.nil_of_idle (h : s.Sync ps k) (hidle : s.toServer = []) : ps = [] := by
  rcases ps with _ | ⟨p, ps⟩
  · rfl
  · obtain ⟨m, hm, -⟩ := h.exists_message (j := 0) (by simp)
    rw [hidle] at hm
    exact absurd hm List.not_mem_nil

/-- **A quiet click.** The target stays, or there is nothing in flight for the old one. -/
theorem Sync.click (h : s.Sync ps k) {chip : ℕ}
    (hq : s.target = some chip ∨ s.toClient = [] ∧ s.toServer = []) :
    Sync { s with target := some chip, toClient := s.toClient ++ [chip] } ps k := by
  have huploads : ∀ p ∈ ps, (some chip : Option ℕ) = some p.1 := by
    intro p hp
    rcases hq with htarget | ⟨-, hidle⟩
    · exact htarget.symm.trans (h.uploads p hp)
    · rw [h.nil_of_idle hidle] at hp
      exact absurd hp List.not_mem_nil
  have hrequests : ∀ r ∈ s.toClient ++ [chip], (some chip : Option ℕ) = some r := by
    intro r hr
    rcases List.mem_append.1 hr with hr | hr
    · rcases hq with htarget | ⟨hidle, -⟩
      · exact htarget.symm.trans (h.requests r hr)
      · rw [hidle] at hr
        exact absurd hr List.not_mem_nil
    · rw [List.mem_singleton.1 hr]
  exact ⟨h.answered, h.flight, h.position, h.buffer, h.sizes, huploads, hrequests, h.evaluated⟩

/-- **An answer** puts an upload behind those in flight. -/
theorem Sync.answer (h : s.Sync ps k) {chip : ℕ} {requests : List ℕ}
    (hrequests : s.toClient = chip :: requests) {script : List α} (hpos : 0 < (chunksOf script).length)
    (hsize : (chunksOf script).length ≤ 65535) :
    Sync { s with
      toClient := requests
      toServer := s.toServer ++ (uploadCode script).map fun m => (s.answered.length, m)
      answered := s.answered ++ [(chip, script)] } (ps ++ [(chip, script)]) k := by
  have htarget : s.target = some chip := h.requests chip (by rw [hrequests]; exact List.mem_cons_self)
  have hlen : s.answered.length = s.compiled.length + ps.length := by
    rw [h.answered, List.length_append, List.length_map]
  have hdrop : k ≤ (JSChip.flight s.compiled.length ps).length := by
    rcases ps with _ | ⟨p, ps⟩
    · rcases h.position with hk | hk
      · rw [hk]; exact Nat.zero_le _
      · exact absurd hk (by simp [current, chunksOf, chunkSize])
    · have := h.position_lt
      rw [length_flight_cons]
      omega
  refine ⟨?_, ?_, ?_, ?_, ?_, ?_, ?_, h.evaluated⟩
  · rw [h.answered, List.append_assoc]
  · rw [flight_append, List.drop_append_of_le_length hdrop, ← h.flight, hlen]
  · rcases ps with _ | ⟨p, ps⟩
    · rcases h.position with hk | hk
      · exact Or.inl hk
      · exact absurd hk (by simp [current, chunksOf, chunkSize])
    · exact h.position
  · rcases ps with _ | ⟨p, ps⟩
    · rcases h.position with hk | hk
      · have hb := h.buffer
        rw [hk, Finset.range_zero] at hb ⊢
        exact ⟨hb.keys, fun _ hj => absurd hj (Finset.notMem_empty _)⟩
      · exact absurd hk (by simp [current, chunksOf, chunkSize])
    · exact h.buffer
  · intro p hp
    rcases List.mem_append.1 hp with hp | hp
    · exact h.sizes p hp
    · rw [List.mem_singleton.1 hp]; exact ⟨hpos, hsize⟩
  · intro p hp
    rcases List.mem_append.1 hp with hp | hp
    · exact h.uploads p hp
    · rw [List.mem_singleton.1 hp]; exact htarget
  · intro r hr
    exact h.requests r (by rw [hrequests]; exact List.mem_cons_of_mem _ hr)

/-- What is compiled is evaluated if there is bytecode. -/
theorem complete_evaluated
    (h : s.evaluated = (s.compiled.filter (·.hasBytecode)).map fun c => (c.chip, c.script))
    (chip : ℕ) (script : List α) (result : Compiled) :
    (s.complete chip script result).evaluated =
      ((s.complete chip script result).compiled.filter (·.hasBytecode)).map
        fun c => (c.chip, c.script) := by
  unfold complete
  dsimp only
  generalize (if script = [] then _ else result : Compiled) = answer
  -- an error, a script that has no bytecode, and one that has
  rcases answer with message | _ | bytecode
  · simp [h, Compilation.hasBytecode]
  · simp [h, Compilation.hasBytecode]
  · simp [h, Compilation.hasBytecode]

section Deliver

variable {len : LuaLength α} {c chip : ℕ} {m : ChunkMessage α} {messages : List (ℕ × ChunkMessage α)}
  {b : Option (ScriptChunks α)}

/-- A chunk that does not complete its upload is stored. -/
theorem step_deliver_stores (hserver : s.toServer = (c, m) :: messages) (htarget : s.target = some chip)
    (hcode : requestCode len true s.buffer m = (b, none)) (result : Compiled) :
    step len s (.deliver result) = some { s with toServer := messages, buffer := b } := by
  simp only [step, hserver, htarget, hcode]

/-- A chunk that does has the script compiled. -/
theorem step_deliver_completes {script : List α} (hserver : s.toServer = (c, m) :: messages)
    (htarget : s.target = some chip) (hcode : requestCode len true s.buffer m = (b, some script))
    (result : Compiled) :
    step len s (.deliver result) =
      some ({ s with toServer := messages, buffer := b }.complete chip script result) := by
  simp only [step, hserver, htarget, hcode]

end Deliver

/-- **A chunk is handled**: it is stored, or it completes the upload for the current target. -/
theorem Sync.deliver (len : LuaLength α) {p : ℕ × List α} (h : s.Sync (p :: ps) k) (result : Compiled)
    (hstep : step len s (.deliver result) = some s') :
    s'.Sync (p :: ps) (k + 1) ∨ s'.Sync ps 0 := by
  have hk := h.position_lt
  obtain ⟨hpos, hsize⟩ := h.sizes p List.mem_cons_self
  have htarget : s.target = some p.1 := h.uploads p List.mem_cons_self
  have hflight : s.toServer = (s.compiled.length, chunkMessage p.2 k) ::
      (JSChip.flight s.compiled.length (p :: ps)).drop (k + 1) := by
    rw [h.flight, drop_flight ps hk]
  have hbuffer : Collected p.2 ∅ (Finset.range k) (storedChunks s.buffer) := h.buffer
  have hcard : (∅ ∪ (insert k (Finset.range k)).image (· + 1)).card = k + 1 := by
    rw [Finset.empty_union, ← Finset.range_add_one, image_succ_range, Nat.card_Ico]
    omega
  rcases Nat.lt_or_ge (k + 1) (chunksOf p.2).length with hlt | hge
  · obtain ⟨b', hb', hcoll⟩ := requestCode_stores len hbuffer hsize hk (by rw [hcard]; exact hlt.ne)
    rw [step_deliver_stores hflight htarget hb', Option.some.injEq] at hstep
    subst hstep
    left
    exact ⟨h.answered, rfl, Or.inr hlt, by rwa [Finset.range_add_one], h.sizes,
      fun q hq => htarget ▸ h.uploads q hq, fun r hr => htarget ▸ h.requests r hr, h.evaluated⟩
  · have hlast : insert k (Finset.range k) = Finset.range (chunksOf p.2).length := by
      rw [← Finset.range_add_one]; congr 1; omega
    have hcode := requestCode_completes len hbuffer hsize hk hlast
      (fun i hi => absurd hi (Finset.notMem_empty i))
    rw [step_deliver_completes hflight htarget hcode, Option.some.injEq] at hstep
    subst hstep
    right
    have hend : k + 1 = (chunksOf p.2).length := by omega
    refine ⟨?_, ?_, Or.inl rfl, ?_, fun q hq => h.sizes q (List.mem_cons_of_mem _ hq), ?_, ?_, ?_⟩
    · simp only [complete, h.answered, List.map_append, List.map_cons, List.map_nil,
        List.append_assoc, List.singleton_append]
    · simp only [complete, hend, drop_flight_all, List.length_append, List.length_singleton,
        List.drop_zero]
    · exact Collected.start _ ∅
    · exact fun q hq => htarget ▸ h.uploads q (List.mem_cons_of_mem _ hq)
    · exact fun r hr => htarget ▸ h.requests r hr
    · exact complete_evaluated h.evaluated p.1 p.2 result

/-- Some uploads are in flight, all for the target, and some of the first one's messages handled. -/
def InSync (s : Network α) : Prop := ∃ ps k, s.Sync ps k

/-- **A step that meets `QuietClick` keeps the invariant.** -/
theorem sync_step (len : LuaLength α) (h : s.InSync) {a : Action α} (hq : s.QuietClick a)
    (hstep : step len s a = some s') : s'.InSync := by
  obtain ⟨ps, k, h⟩ := h
  cases a with
  | click chip =>
    cases hstep
    exact ⟨ps, k, h.click hq⟩
  | answer code =>
    simp only [step] at hstep
    split at hstep
    · cases hstep
    · rename_i chip requests hrequests
      have hpop : ∀ r ∈ requests, s.target = some r :=
        fun r hr => h.requests r (by rw [hrequests]; exact List.mem_cons_of_mem _ hr)
      rcases code with _ | script
      · cases hstep
        exact ⟨ps, k, h.answered, h.flight, h.position, h.buffer, h.sizes, h.uploads, hpop, h.evaluated⟩
      · rcases Nat.eq_zero_or_pos (chunksOf script).length with hzero | hpos
        · -- nothing is sent
          have hnone : uploadCode script = [] := by
            rw [← List.length_eq_zero_iff, length_uploadCode, hzero]
          simp only [hzero, hnone, List.map_nil, List.append_nil, if_true] at hstep
          cases hstep
          exact ⟨ps, k, h.answered, h.flight, h.position, h.buffer, h.sizes, h.uploads, hpop,
            h.evaluated⟩
        · simp only [hpos.ne', if_false] at hstep
          cases hstep
          exact ⟨ps ++ [(chip, script)], k, h.answer hrequests hpos (hq script rfl)⟩
  | deliver result =>
    rcases ps with _ | ⟨p, ps⟩
    · have hidle : s.toServer = [] := by rw [h.flight]; exact List.drop_nil
      simp only [step, hidle] at hstep
      cases hstep
    · rcases h.deliver len result hstep with h' | h'
      · exact ⟨_, _, h'⟩
      · exact ⟨_, _, h'⟩

/-- **Code reaches the chip it was requested for**, in every run in which clicks on other chips
wait until nothing is in flight. -/
theorem delivered_run (len : LuaLength α) (as : List (Action α))
    (h : Along (step len) QuietClick (init : Network α) as) :
    Always (step len) Delivered (init : Network α) as :=
  always_of_along (fun _ ⟨_, _, h⟩ => h.delivered) (fun _ _ _ h hq hstep => sync_step len h hq hstep)
    as ⟨[], 0, init_sync⟩ h

/-! ## Crossed clicks -/

/-- A one-byte script has one chunk. -/
theorem length_chunksOf_singleton (x : α) : (chunksOf [x]).length = 1 := by
  rw [length_chunksOf]
  simp [chunkSize]

theorem uploadCode_singleton (x : α) : uploadCode [x] = [chunkMessage [x] 0] := by
  rw [uploadCode, length_chunksOf_singleton]; rfl

/-- Bytecode. -/
def bytecode : Compiled := .ok (some "bytecode")

/-- A chip is clicked, the client answers with a one-byte script, and its chunk is handled. -/
def oneClick : List (Action ℕ) := [.click 1, .answer (some [7]), .deliver bytecode]

/-- An answer with a one-byte script. -/
theorem answer_singleton (target : Option ℕ) (chip : ℕ) (requests : List ℕ) (x : ℕ) :
    step Receiver.leastLength ⟨target, none, chip :: requests, [], [], [], []⟩ (.answer (some [x])) =
      some ⟨target, none, requests, [(0, chunkMessage [x] 0)], [(chip, [x])], [], []⟩ := by
  simp [step, length_chunksOf_singleton x, uploadCode_singleton]

/-- Its chunk completes it. -/
theorem deliver_singleton (chip : ℕ) (requests : List ℕ) (answered : List (ℕ × List ℕ)) (x : ℕ) :
    step Receiver.leastLength
        ⟨some chip, none, requests, [(0, chunkMessage [x] 0)], answered, [], []⟩ (.deliver bytecode) =
      some ⟨some chip, none, requests, [], answered, [⟨chip, [x], bytecode⟩], [(chip, [x])]⟩ := by
  have hone := length_chunksOf_singleton x
  have hcode : requestCode Receiver.leastLength true none (chunkMessage [x] 0) = (none, some [x]) :=
    requestCode_completes Receiver.leastLength (Collected.start [x] ∅) (by omega) (by omega)
      (by rw [hone]; rfl) (fun i hi => absurd hi (Finset.notMem_empty i))
  rw [step_deliver_completes rfl rfl hcode]
  rfl

/-- The script is evaluated in the chip that was clicked. -/
theorem delivered_one_click :
    Always (step Receiver.leastLength) Delivered (init : Network ℕ) oneClick ∧
      (run (step Receiver.leastLength) (init : Network ℕ) oneClick).map (·.evaluated) =
        some [(1, [7])] := by
  have hclick : step Receiver.leastLength (init : Network ℕ) (.click 1) =
      some ⟨some 1, none, [1], [], [], [], []⟩ := rfl
  have hanswer := answer_singleton (some 1) 1 [] 7
  have hdeliver := deliver_singleton 1 [] [(1, [7])] 7
  refine ⟨delivered_run Receiver.leastLength oneClick ((along_cons hclick _).2 ⟨Or.inr ⟨rfl, rfl⟩,
    (along_cons hanswer _).2 ⟨?_, (along_cons hdeliver _).2 ⟨trivial, trivial⟩⟩⟩), ?_⟩
  · intro script hscript
    cases hscript
    rw [length_chunksOf_singleton]
    omega
  · have hrun : run (step Receiver.leastLength) (init : Network ℕ) oneClick =
        some ⟨some 1, none, [], [], [(1, [7])], [⟨1, [7], bytecode⟩], [(1, [7])]⟩ := by
      rw [oneClick, run_cons_of hclick, run_cons_of hanswer, run_cons_of hdeliver]
      rfl
    rw [hrun]
    rfl

/-- Chips 1 and 2 are clicked before the client answers. -/
def crossed : List (Action ℕ) := [.click 1, .click 2, .answer (some [7]), .deliver bytecode]

/-- **The answer to the request for chip 1 is compiled in chip 2.** -/
theorem crossed_clicks : ¬ Always (step Receiver.leastLength) Delivered (init : Network ℕ) crossed := by
  intro h
  have hanswer := answer_singleton (some 2) 1 [2] 7
  have hdeliver := deliver_singleton 2 [2] [(1, [7])] 7
  have hlast := ((((h.2 _ rfl).2 _ rfl).2 _ hanswer).2 _ hdeliver).1
  simp at hlast

end Network

end JSChip

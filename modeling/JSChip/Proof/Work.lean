import Mathlib.Algebra.BigOperators.Group.List.Basic
import Mathlib.Algebra.Order.BigOperators.Group.List
import Mathlib.Data.Finset.Card
import Mathlib.Tactic.Ring
import JSChip.Machine.Run
import JSChip.Spec.Bytecode

/-!
# Does metering bound the work?

The potential of a state is what its activations have not dispatched since they last
charged, and the length of the program for each call that is paid for and not made yet.

* `step_pays`: a step whose work is paid for (`PaidFor`) dispatches out of the potential,
  and raises it by at most the length of the program for each unit charged.
* `metered_run`: **if the work of every step is paid for, the limit bounds the work.**
* `getters_exponential`: it is not for getters. A getter that reads the next one twice makes
  a listener of three instructions dispatch more than `2 ^ n`, and charges nothing.
-/

namespace JSChip.Bytecode

open Machine

variable {p : Program} {s s' : Vm} {a : Activation} {fs : List Frame}

/-! ## The length of a program -/

theorem Op.size_pos (op : Op) : 0 < op.size := by cases op <;> decide

theorem Body.length_le_size (code : Body) : code.length ≤ code.size := by
  induction code with
  | nil => exact Nat.le_refl 0
  | cons i is ih =>
    have := i.op.size_pos
    simp only [Body.size, List.map_cons, List.sum_cons, List.length_cons] at ih ⊢
    omega

theorem Program.length_le_size (p : Program) (f : ℕ) : (p.getD f []).length ≤ p.size := by
  rw [List.getD_eq_getElem?_getD]
  cases h : p[f]? with
  | none => exact Nat.zero_le _
  | some code =>
    have hmem : code.size ∈ p.map Body.size := List.mem_map_of_mem (List.mem_of_getElem? h)
    exact (Body.length_le_size code).trans (List.single_le_sum (fun _ _ => Nat.zero_le _) _ hmem)

/-! ## The potential -/

/-- What an activation has not dispatched since it last charged. -/
def Activation.unseen (p : Program) (a : Activation) : ℕ :=
  (Finset.range (p.getD a.f []).length \ a.seen).card

/-- What a frame may still dispatch without a charge. -/
def Frame.credit (p : Program) : Frame → ℕ
  | .body a => a.unseen p
  | .native paid => if paid then p.size else 0

def creditOf (p : Program) (fs : List Frame) : ℕ := (fs.map (Frame.credit p)).sum

def Vm.credit (p : Program) (s : Vm) : ℕ :=
  creditOf p s.frames + (s.suspended.map (Activation.unseen p)).sum

@[simp] theorem creditOf_nil : creditOf p [] = 0 := rfl

@[simp] theorem creditOf_body : creditOf p (.body a :: fs) = a.unseen p + creditOf p fs := by
  simp [creditOf, Frame.credit]

@[simp] theorem creditOf_native (paid : Bool) :
    creditOf p (.native paid :: fs) = (if paid then p.size else 0) + creditOf p fs := by
  simp [creditOf, Frame.credit]

theorem Activation.unseen_le (a : Activation) : a.unseen p ≤ p.size := by
  refine le_trans ?_ (p.length_le_size a.f)
  exact (Finset.card_le_card Finset.sdiff_subset).trans_eq (Finset.card_range _)

/-- Dispatching an instruction for the first time uses one unit. -/
theorem Activation.unseen_insert {code : Body} {i : Instr} (hcode : p[a.f]? = some code)
    (hi : code[a.pc]? = some i) (hpc : a.pc ∉ a.seen) :
    Activation.unseen p { a with seen := insert a.pc a.seen } + 1 = a.unseen p := by
  have hlt : a.pc < code.length := (List.getElem?_eq_some_iff.1 hi).1
  have hmem : a.pc ∈ Finset.range (p.getD a.f []).length \ a.seen := by
    simp [List.getD_eq_getElem?_getD, hcode, hlt, hpc]
  simp only [unseen]
  rw [Finset.sdiff_insert, Finset.card_erase_add_one hmem]

/-- An exception costs nothing. -/
@[simp] theorem creditOf_throwTo : creditOf p (throwTo fs) = creditOf p fs := by
  cases fs with
  | nil => rfl
  | cons f fs => cases f <;> simp [throwTo, Activation.unseen]

/-- A resumed activation takes what it may dispatch along. -/
theorem sum_eraseIdx {l : List Activation} {k : ℕ} (h : l[k]? = some a) :
    a.unseen p + ((l.eraseIdx k).map (Activation.unseen p)).sum =
      (l.map (Activation.unseen p)).sum := by
  induction l generalizing k with
  | nil => cases h
  | cons b l ih =>
    cases k with
    | zero => cases h; rfl
    | succ k =>
      have := ih h
      simp only [List.eraseIdx_cons_succ, List.map_cons, List.sum_cons]
      omega

/-! ## Charges -/

theorem charge_spec (s : Vm) (cost : ℕ) :
    ∃ m, (s.charge cost).2 = { s with meter := m, charged := s.charged + cost } := by
  unfold Vm.charge
  by_cases h : cost = 0
  · exact ⟨s.meter, by simp [h]⟩
  · exact ⟨(handleOpLimit s.meter cost).2, by simp only [if_neg h]⟩

/-- The charges of an instruction touch the meter, and count at least its cost. -/
theorem charges_spec (s : Vm) (op : Op) (slow : Bool) :
    ∃ m c, op.cost ≤ c ∧
      (s.charges op slow).2 = { s with meter := m, charged := s.charged + c } := by
  obtain ⟨m, hm⟩ := charge_spec s op.cost
  obtain ⟨m', hm'⟩ := charge_spec (s.charge op.cost).2 op.slowCost
  unfold Vm.charges
  cases h : (s.charge op.cost).1 with
  | true => exact ⟨m, op.cost, le_rfl, by simp [h, hm]⟩
  | false =>
    cases slow with
    | false => exact ⟨m, op.cost, le_rfl, by simp [h, hm]⟩
    | true =>
      refine ⟨m', op.cost + op.slowCost, by omega, ?_⟩
      simp only [h, Bool.false_eq_true, if_false, if_true]
      rw [hm', hm, Nat.add_assoc]

/-- A call opcode is charged. -/
theorem Op.cost_pos (op : Op) : op.flow = .call ∨ op.flow = .tailCall → 0 < op.cost := by
  cases op <;> decide

/-! ## One step -/

/-- An instruction touches the frames and the suspended activations only. -/
theorem perform_frame {code : Body} {i : Instr} {o : Outcome}
    (h : s.perform p code i a fs o = some s') :
    ∃ frames suspended, s' = { s with frames, suspended } := by
  cases o with
  | enter g =>
    simp only [Vm.perform] at h
    split at h
    · obtain ⟨pc, -, rfl⟩ := Option.map_eq_some_iff.1 h
      exact ⟨_, _, rfl⟩
    · cases h
  | throw =>
    cases h
    exact ⟨_, _, rfl⟩
  | _ =>
    simp only [Vm.perform] at h
    split at h
    · cases h
      exact ⟨_, _, rfl⟩
    · cases h

/-- **An instruction raises the potential by what it was charged for**: an instruction that goes
on in the body by what the activation may dispatch again, a call by the callee. -/
theorem perform_pays {code : Body} {i : Instr} {o : Outcome}
    (h : s.perform p code i a fs o = some s') :
    s'.credit p ≤ creditOf p (.body a :: fs) + (s.suspended.map (Activation.unseen p)).sum +
      p.size * i.op.cost := by
  cases o with
  | next pc =>
    simp only [Vm.perform] at h
    split at h
    · cases h
      by_cases hc : i.op.cost = 0
      · simp [Vm.credit, Activation.unseen, hc]
      · have hle := Activation.unseen_le (p := p) { a with pc, seen := ∅ }
        have hcost : p.size ≤ p.size * i.op.cost :=
          Nat.le_mul_of_pos_right _ (Nat.pos_of_ne_zero hc)
        simp only [Vm.credit, if_neg hc, creditOf_body]
        omega
    · cases h
  | enter g =>
    simp only [Vm.perform] at h
    split at h
    · next hf =>
      obtain ⟨pc, -, rfl⟩ := Option.map_eq_some_iff.1 h
      have hle := Activation.unseen_le (p := p) (.enter g)
      have hcost : p.size ≤ p.size * i.op.cost :=
        Nat.le_mul_of_pos_right _ (i.op.cost_pos (by simpa using hf.1))
      have hpc : Activation.unseen p { a with pc } = a.unseen p := rfl
      simp only [Vm.credit, creditOf_body, hpc]
      omega
    · cases h
  | native pc =>
    simp only [Vm.perform] at h
    split at h
    · cases h
      have hpc : Activation.unseen p { a with pc } = a.unseen p := rfl
      by_cases hc : i.op.cost = 0
      · simp [Vm.credit, hc, hpc]
      · have hcost : p.size ≤ p.size * i.op.cost :=
          Nat.le_mul_of_pos_right _ (Nat.pos_of_ne_zero hc)
        simp only [Vm.credit, creditOf_native, creditOf_body, hpc, bne_iff_ne, ne_eq, hc,
          not_false_eq_true, if_true]
        omega
    · cases h
  | leave =>
    simp only [Vm.perform] at h
    split at h
    · cases h
      simp only [Vm.credit, creditOf_body]
      omega
    · cases h
  | suspend =>
    simp only [Vm.perform] at h
    split at h
    · cases h
      have hpc : Activation.unseen p { a with pc := a.pc + 1 } = a.unseen p := rfl
      simp only [Vm.credit, creditOf_body, List.map_cons, List.sum_cons, hpc]
      omega
    · cases h
  | throw =>
    cases h
    simp only [Vm.credit, creditOf_throwTo]
    omega

/-- **What dispatching an instruction can do.** -/
theorem step_dispatch {slow : Bool} {o : Outcome} (h : s.step p (.dispatch slow o) = some s') :
    ∃ a fs code i m c, s.frames = .body a :: fs ∧ p[a.f]? = some code ∧ code[a.pc]? = some i ∧
      i.op.cost ≤ c ∧
      let t : Vm :=
        { s with dispatched := s.dispatched + 1, meter := m, charged := s.charged + c }
      let a' : Activation := { a with seen := insert a.pc a.seen }
      s' = { t with frames := throwTo (.body a' :: fs) } ∨ t.perform p code i a' fs o = some s' := by
  obtain ⟨frames, suspended, meter, dispatched, charged⟩ := s
  cases frames with
  | nil => cases h
  | cons f fs =>
    cases f with
    | native paid => cases h
    | body a =>
      simp only [Vm.step] at h
      split at h
      · cases h
      · obtain ⟨code, hcode, h⟩ := Option.bind_eq_some_iff.1 h
        obtain ⟨i, hi, h⟩ := Option.bind_eq_some_iff.1 h
        obtain ⟨m, c, hc, ht⟩ := charges_spec
          (⟨.body a :: fs, suspended, meter, dispatched + 1, charged⟩ : Vm) i.op slow
        refine ⟨a, fs, code, i, m, c, rfl, hcode, hi, hc, ?_⟩
        rw [ht] at h
        split at h
        · exact Or.inl (Option.some.inj h).symm
        · exact Or.inr h

/-- **A step that is paid for** dispatches out of the potential, which it raises by at most the
length of the program for each unit charged. -/
theorem step_pays {act : Action} (hpaid : PaidFor s act) (h : s.step p act = some s') :
    s'.dispatched + s'.credit p + p.size * s.charged ≤
      s.dispatched + s.credit p + p.size * s'.charged := by
  cases act with
  | dispatch slow o =>
    obtain ⟨a, fs, code, i, m, c, hfs, hcode, hi, hc, h⟩ := step_dispatch h
    have hseen := Activation.unseen_insert hcode hi (hpaid a fs hfs)
    have hcost : p.size * i.op.cost ≤ p.size * c := Nat.mul_le_mul_left _ hc
    rcases h with rfl | h
    · simp only [Vm.credit, hfs, creditOf_throwTo, creditOf_body, Nat.mul_add]
      omega
    · have hcr := perform_pays h
      obtain ⟨frames, suspended, rfl⟩ := perform_frame h
      simp only [Vm.credit, hfs, creditOf_body, Nat.mul_add] at hcr ⊢
      omega
  | handle pc =>
    simp only [Vm.step] at h
    split at h
    · next a fs hfs =>
      split at h
      · cases h
        simp [Vm.credit, hfs, Activation.unseen]
      · cases h
    · cases h
  | closeIterator =>
    simp only [Vm.step] at h
    split at h
    · next a fs hfs =>
      split at h
      · cases h
        simp [Vm.credit, hfs]
      · cases h
    · cases h
  | unwind =>
    simp only [Vm.step] at h
    split at h
    · next a fs hfs =>
      split at h
      · cases h
        simp only [Vm.credit, hfs, creditOf_throwTo, creditOf_body]
        omega
      · cases h
    · cases h
  | done =>
    simp only [Vm.step] at h
    split at h
    · next a fs hfs =>
      split at h
      · cases h
        simp only [Vm.credit, hfs, creditOf_body]
        omega
      · cases h
    · cases h
  | callBody g =>
    simp only [Vm.step] at h
    split at h
    · next paid fs hfs =>
      split at h
      · cases h
        obtain rfl := hpaid paid fs hfs
        have hle := Activation.unseen_le (p := p) (.enter g)
        simp only [Vm.credit, hfs, creditOf_body, creditOf_native, if_true, Bool.false_eq_true,
          if_false]
        omega
      · cases h
    · cases h
  | resume k throwFlag =>
    simp only [Vm.step] at h
    split at h
    · next paid fs hfs =>
      obtain ⟨a, ha, rfl⟩ := Option.map_eq_some_iff.1 h
      have hsum := sum_eraseIdx (p := p) ha
      have hth : Activation.unseen p { a with unwinding := throwFlag } = a.unseen p := rfl
      simp only [Vm.credit, hfs, creditOf_body, creditOf_native, hth]
      omega
    · cases h
  | finish threw =>
    simp only [Vm.step] at h
    split at h
    · next paid fs hfs =>
      cases h
      simp only [Vm.credit, hfs, creditOf_native]
      cases threw <;> simp
    · cases h

/-! ## Runs -/

/-- **Metering bounds the work**, when the work of every step is paid for. -/
theorem metered_run (p : Program) (f : ℕ) (opLimit : UInt64) (acts : List Action)
    (hpaid : Along (Vm.step p) PaidFor (Vm.start f opLimit) acts) :
    Always (Vm.step p) (Vm.Metered p) (Vm.start f opLimit) acts := by
  have hmetered : Vm.Metered p = fun s => s.dispatched ≤ p.size + p.size * s.charged := by
    funext s
    rw [Vm.Metered, Nat.mul_succ, Nat.add_comm]
  have hstart : (Vm.start f opLimit).credit p ≤ p.size := by
    simpa [Vm.credit, Vm.start] using Activation.unseen_le (p := p) (.enter f)
  rw [hmetered]
  refine always_amortized (fun _ _ _ hc h => step_pays hc h) acts ?_ hpaid
  simpa [Vm.start] using hstart

/-- `function () { list.map(callback); }`, and an empty callback. -/
def mapOnce : Program :=
  [[⟨.opGetVar, 0⟩, ⟨.opGetField2, 0⟩, ⟨.opGetVar, 0⟩, ⟨.opCallMethod, 0⟩, ⟨.opReturnUndef, 0⟩],
    [⟨.opReturnUndef, 0⟩]]

/-- The run of the listener on a list of one element. -/
def mapOnceActs : List Action :=
  [.dispatch false (.next 1), .dispatch false (.next 2), .dispatch false (.next 3),
    .dispatch false (.native 4), .callBody 1, .dispatch false .leave, .finish false,
    .dispatch false .leave]

theorem metered_mapOnce :
    Always (Vm.step mapOnce) (Vm.Metered mapOnce) (Vm.start 0 25000) mapOnceActs := by
  have hdispatch : ∀ {s : Vm} {a : Activation} {fs : List Frame} {slow : Bool} {o : Outcome},
      s.frames = .body a :: fs → a.pc ∉ a.seen → PaidFor s (.dispatch slow o) := by
    rintro s a fs slow o hfs hpc a' fs' h
    obtain ⟨⟨rfl⟩, -⟩ := List.cons.inj (hfs.symm.trans h)
    exact hpc
  refine metered_run mapOnce 0 25000 mapOnceActs ?_
  refine (along_cons rfl _).2 ⟨hdispatch rfl (by decide), ?_⟩
  refine (along_cons rfl _).2 ⟨hdispatch rfl (by decide), ?_⟩
  refine (along_cons rfl _).2 ⟨hdispatch rfl (by decide), ?_⟩
  refine (along_cons rfl _).2 ⟨hdispatch rfl (by decide), ?_⟩
  refine (along_cons rfl _).2 ⟨by rintro paid fs ⟨⟩; rfl, ?_⟩
  refine (along_cons rfl _).2 ⟨hdispatch rfl (by decide), ?_⟩
  refine (along_cons rfl _).2 ⟨trivial, ?_⟩
  exact (along_cons rfl _).2 ⟨hdispatch rfl (by decide), trivial⟩

/-! ## Getters -/

/-- `get a_k() { this.a_(k-1); this.a_(k-1); }`, and an empty body for `a_0`. The second value
is not dropped: `resolve_labels` takes out a drop before `return_undef`. -/
def getter : ℕ → Body
  | 0 => [⟨.opReturnUndef, 0⟩]
  | _ + 1 =>
    [⟨.opPushThis, 0⟩, ⟨.opPutLoc0, 0⟩, ⟨.opGetLoc0, 0⟩, ⟨.opGetField, 0⟩, ⟨.opDrop, 0⟩,
      ⟨.opGetLoc0, 0⟩, ⟨.opGetField, 0⟩, ⟨.opReturnUndef, 0⟩]

/-- The getters `a_0 .. a_n`, and a listener `function () { o.a_n; }` at position `n + 1`. -/
def getterChain (n : ℕ) : Program :=
  (List.range (n + 1)).map getter ++
    [[⟨.opGetVar, 0⟩, ⟨.opGetField, 0⟩, ⟨.opReturnUndef, 0⟩]]

/-- Reading `a_k` at position `q`: the object, the field, and the getter. -/
def readActs (q k : ℕ) (acts : List Action) : List Action :=
  [.dispatch false (.next (q + 1)), .dispatch false (.native (q + 2)), .callBody k] ++ acts ++
    [.finish false]

/-- The run of `a_k`. -/
def getterActs : ℕ → List Action
  | 0 => [.dispatch false .leave]
  | k + 1 =>
    [.dispatch false (.next 1), .dispatch false (.next 2)] ++ readActs 2 k (getterActs k) ++
      [.dispatch false (.next 5)] ++ readActs 5 k (getterActs k) ++ [.dispatch false .leave]

/-- The instructions `a_k` dispatches. -/
def getterWork : ℕ → ℕ
  | 0 => 1
  | k + 1 => 8 + 2 * getterWork k

theorem getterWork_eq (k : ℕ) : getterWork k + 8 = 9 * 2 ^ k := by
  induction k with
  | zero => rfl
  | succ k ih =>
    rw [getterWork, pow_succ]
    omega

theorem getterChain_size (n : ℕ) : (getterChain n).size = 16 * n + 12 := by
  have hgetters : ((List.range (n + 1)).map fun k => (getter k).size).sum = 16 * n + 1 := by
    induction n with
    | zero => rfl
    | succ n ih =>
      have hsize : (getter (n + 1)).size = 16 := rfl
      rw [List.range_succ, List.map_append, List.sum_append, ih, List.map_singleton,
        List.sum_singleton, hsize]
      omega
  simp only [getterChain, Program.size, List.map_append, List.sum_append, List.map_map,
    Function.comp_def, hgetters]
  rfl

section getterRun

variable {sus : List Activation} {m : Meter} {d c f q k n : ℕ} {seen : Finset ℕ} {code : Body}
  {i : Instr}

theorem charges_uncharged {op : Op} (s : Vm) (h : op.cost = 0) :
    s.charges op false = (false, s) := by
  simp only [Vm.charges, Vm.charge, h, if_true, Bool.false_eq_true, if_false]

theorem dispatch_uncharged {o : Outcome} (hcode : p[f]? = some code) (hi : code[q]? = some i)
    (hcost : i.op.cost = 0) :
    Vm.step p ⟨.body ⟨f, q, seen, false⟩ :: fs, sus, m, d, c⟩ (.dispatch false o) =
      (⟨.body ⟨f, q, seen, false⟩ :: fs, sus, m, d + 1, c⟩ : Vm).perform p code i
        ⟨f, q, insert q seen, false⟩ fs o := by
  simp only [Vm.step, hcode, hi, Option.bind_some, charges_uncharged _ hcost, Bool.false_eq_true,
    if_false]

theorem step_next (hcode : p[f]? = some code) (hi : code[q]? = some i) (hcost : i.op.cost = 0)
    (hflow : i.op.flow = .straight) :
    Vm.step p ⟨.body ⟨f, q, seen, false⟩ :: fs, sus, m, d, c⟩ (.dispatch false (.next (q + 1))) =
      some ⟨.body ⟨f, q + 1, insert q seen, false⟩ :: fs, sus, m, d + 1, c⟩ := by
  rw [dispatch_uncharged hcode hi hcost]
  simp [Vm.perform, Instr.successors, hcost, hflow]

theorem step_native (hcode : p[f]? = some code) (hi : code[q]? = some i) (hcost : i.op.cost = 0)
    (hflow : i.op.flow = .straight) :
    Vm.step p ⟨.body ⟨f, q, seen, false⟩ :: fs, sus, m, d, c⟩ (.dispatch false (.native (q + 1))) =
      some ⟨.native false :: .body ⟨f, q + 1, insert q seen, false⟩ :: fs, sus, m, d + 1, c⟩ := by
  rw [dispatch_uncharged hcode hi hcost]
  simp [Vm.perform, Instr.successors, hcost, hflow]

theorem step_leave (hcode : p[f]? = some code) (hi : code[q]? = some i) (hcost : i.op.cost = 0)
    (hflow : i.op.flow = .leave) :
    Vm.step p ⟨.body ⟨f, q, seen, false⟩ :: fs, sus, m, d, c⟩ (.dispatch false .leave) =
      some ⟨fs, sus, m, d + 1, c⟩ := by
  rw [dispatch_uncharged hcode hi hcost]
  simp [Vm.perform, hflow]

theorem step_callBody (hk : k < p.length) :
    Vm.step p ⟨.native false :: fs, sus, m, d, c⟩ (.callBody k) =
      some ⟨.body (.enter k) :: .native false :: fs, sus, m, d, c⟩ := by simp [Vm.step, hk]

theorem step_finish :
    Vm.step p ⟨.native false :: fs, sus, m, d, c⟩ (.finish false) = some ⟨fs, sus, m, d, c⟩ := rfl

variable (fs sus m d c q seen) in
/-- Reading a field whose getter dispatches `w` instructions and charges nothing. -/
theorem read_run {w : ℕ} {acts : List Action} (hcode : p[f]? = some code) (hk : k < p.length)
    (hi : code[q]? = some i) (hcost : i.op.cost = 0) (hflow : i.op.flow = .straight)
    (hfield : code[q + 1]? = some ⟨.opGetField, 0⟩)
    (hacts : ∀ (fs : List Frame) (d : ℕ),
      run (Vm.step p) ⟨.body (.enter k) :: fs, sus, m, d, c⟩ acts = some ⟨fs, sus, m, d + w, c⟩) :
    ∃ seen', run (Vm.step p) ⟨.body ⟨f, q, seen, false⟩ :: fs, sus, m, d, c⟩ (readActs q k acts) =
      some ⟨.body ⟨f, q + 2, seen', false⟩ :: fs, sus, m, d + (w + 2), c⟩ := by
  refine ⟨insert (q + 1) (insert q seen), ?_⟩
  have hd : d + 1 + 1 + w = d + (w + 2) := by omega
  rw [readActs, List.append_assoc, List.cons_append, run_cons_of (step_next hcode hi hcost hflow),
    List.cons_append, run_cons_of (step_native hcode hfield rfl rfl), List.cons_append,
    run_cons_of (step_callBody hk), List.nil_append, run_append_of (hacts _ _),
    run_cons_of step_finish, run_nil, hd]

/-- **What a getter dispatches**, and charges nothing. -/
theorem getter_run : ∀ {k : ℕ}, k ≤ n → ∀ (fs : List Frame) (d : ℕ),
    run (Vm.step (getterChain n)) ⟨.body (.enter k) :: fs, sus, m, d, c⟩ (getterActs k) =
      some ⟨fs, sus, m, d + getterWork k, c⟩ := by
  intro k
  induction k with
  | zero =>
    intro hk fs d
    have hcode : (getterChain n)[0]? = some (getter 0) := by simp [getterChain]
    rw [getterActs, Activation.enter, run_cons_of (step_leave hcode rfl rfl rfl), run_nil]
    rfl
  | succ k ih =>
    intro hk fs d
    have hlen : k < (getterChain n).length := by simp [getterChain]; omega
    have hcode : (getterChain n)[k + 1]? = some (getter (k + 1)) := by
      have : k + 1 < n + 1 := by omega
      simp [getterChain, List.getElem?_append, this]
    -- the first read, whose value is dropped, and the second, which is the last thing done
    obtain ⟨seen, hfirst⟩ := read_run fs sus m (d + 1 + 1) c 2 {1, 0}
      hcode hlen rfl rfl rfl rfl (ih (by omega))
    obtain ⟨seen', hsecond⟩ := read_run fs sus m (d + 1 + 1 + (getterWork k + 2) + 1) c 5
      (insert 4 seen) hcode hlen rfl rfl rfl rfl (ih (by omega))
    have hthis : Vm.step (getterChain n) ⟨.body ⟨k + 1, 0, ∅, false⟩ :: fs, sus, m, d, c⟩
        (.dispatch false (.next 1)) =
          some ⟨.body ⟨k + 1, 1, {0}, false⟩ :: fs, sus, m, d + 1, c⟩ := step_next hcode rfl rfl rfl
    have hput : Vm.step (getterChain n) ⟨.body ⟨k + 1, 1, {0}, false⟩ :: fs, sus, m, d + 1, c⟩
        (.dispatch false (.next 2)) =
          some ⟨.body ⟨k + 1, 2, {1, 0}, false⟩ :: fs, sus, m, d + 1 + 1, c⟩ :=
      step_next hcode rfl rfl rfl
    have hdrop : ∀ d, Vm.step (getterChain n) ⟨.body ⟨k + 1, 4, seen, false⟩ :: fs, sus, m, d, c⟩
        (.dispatch false (.next 5)) =
          some ⟨.body ⟨k + 1, 5, insert 4 seen, false⟩ :: fs, sus, m, d + 1, c⟩ := by
      intro d
      exact step_next hcode rfl rfl rfl
    have hd : d + 1 + 1 + (getterWork k + 2) + 1 + (getterWork k + 2) + 1 =
        d + getterWork (k + 1) := by
      rw [getterWork]; omega
    simp only [Nat.reduceAdd] at hfirst hsecond
    rw [getterActs, Activation.enter, List.append_assoc, List.append_assoc, List.append_assoc,
      List.cons_append, run_cons_of hthis, List.cons_append, run_cons_of hput, List.nil_append,
      run_append_of hfirst, List.cons_append, run_cons_of (hdrop _), List.nil_append,
      run_append_of hsecond, run_cons_of (step_leave hcode rfl rfl rfl), run_nil, hd]

end getterRun

/-- **A listener that reads `a_n`** dispatches `9 * 2 ^ n - 5` instructions for nothing. -/
theorem getters_exponential (n : ℕ) (opLimit : UInt64) :
    ∃ acts s, run (Vm.step (getterChain n)) (Vm.start (n + 1) opLimit) acts = some s ∧
      s.dispatched + 5 = 9 * 2 ^ n ∧ s.charged = 0 := by
  have hlen : n < (getterChain n).length := by
    simp only [getterChain, List.length_append, List.length_map, List.length_range]
    omega
  have hcode : (getterChain n)[n + 1]? =
      some [⟨.opGetVar, 0⟩, ⟨.opGetField, 0⟩, ⟨.opReturnUndef, 0⟩] := by
    simp [getterChain]
  obtain ⟨seen, hread⟩ := read_run [] [] ⟨0, opLimit⟩ 0 0 0 ∅ hcode hlen rfl rfl rfl rfl
    (getter_run le_rfl)
  refine ⟨readActs 0 n (getterActs n) ++ [.dispatch false .leave],
    ⟨[], [], ⟨0, opLimit⟩, 0 + (getterWork n + 2) + 1, 0⟩, ?_, ?_, rfl⟩
  · rw [Vm.start, Activation.enter, run_append_of hread,
      run_cons_of (step_leave hcode rfl rfl rfl), run_nil]
  · have hwork := getterWork_eq n
    simp only
    omega

/-- For `n = 5` the bound fails: 283 instructions, a program of 92 bytes, and nothing charged. -/
theorem getters_unmetered :
    ¬ ∀ (p : Program) (f : ℕ) (opLimit : UInt64) (acts : List Action),
      Always (Vm.step p) (Vm.Metered p) (Vm.start f opLimit) acts := by
  intro h
  obtain ⟨acts, s, hrun, hwork, hcharged⟩ := getters_exponential 5 25000
  have hmetered := (h (getterChain 5) 6 25000 acts).last hrun
  rw [Vm.Metered, getterChain_size, hcharged] at hmetered
  omega

end JSChip.Bytecode

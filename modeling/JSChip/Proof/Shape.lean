import JSChip.Heap.Chain
import JSChip.Spec.Shape

/-!
# The hash table of a shape

* `Table`: the chains of the entries, by their atoms.
* `JSShape.WF`: what holds of each shape.
* `JSShape.find_ok`: the chain of an atom has the entry with this atom.
* `pushProperty`, `resizedShape`, `removeEntry`, `compactLoop`: each keeps `JSShape.WF`, and `entries` says
  what it does to the properties.
-/

namespace JSChip.Shapes

open HashChain

/-! ## Chains -/

/-- The chain that an entry is in. -/
def keys (size : ℕ) (prop : List JSShapeProperty) (i : ℕ) : Option ℕ :=
  prop[i]?.bind fun pr => if pr.atom = jsAtomNull then none else some (pr.atom &&& (size - 1))

def nexts (prop : List JSShapeProperty) (i : ℕ) : ℕ := prop[i]?.elim 0 JSShapeProperty.hashNext

def heads (propHash : List ℕ) (b : ℕ) : ℕ := propHash.getD b 0

/-- Each entry that is not free is in the chain of its atom. -/
def Table (propHash : List ℕ) (prop : List JSShapeProperty) : Prop :=
  Linked (heads propHash) (nexts prop) (keys propHash.length prop) prop.length

section Chains

variable {propHash : List ℕ} {prop : List JSShapeProperty} {pr : JSShapeProperty} {i b size : ℕ}

theorem heads_set (hb : b < propHash.length) (h : ℕ) :
    heads (propHash.set b h) = Function.update (heads propHash) b h := by
  funext c
  unfold heads
  rw [List.getD_eq_getElem?_getD, List.getElem?_set, Function.update_apply]
  by_cases hc : b = c
  · subst hc
    rw [if_pos rfl, if_pos hb, if_pos rfl]
    rfl
  · rw [if_neg hc, if_neg (Ne.symm hc), List.getD_eq_getElem?_getD]

theorem keys_append_of_lt (hi : i < prop.length) : keys size (prop ++ [pr]) i = keys size prop i := by
  unfold keys
  rw [List.getElem?_append_left hi]

theorem keys_append_self :
    keys size (prop ++ [pr]) prop.length =
      if pr.atom = jsAtomNull then none else some (pr.atom &&& (size - 1)) := by
  unfold keys
  rw [List.getElem?_concat_length]
  rfl

theorem nexts_append_of_lt (hi : i < prop.length) : nexts (prop ++ [pr]) i = nexts prop i := by
  unfold nexts
  rw [List.getElem?_append_left hi]

theorem nexts_append_self : nexts (prop ++ [pr]) prop.length = pr.hashNext := by
  unfold nexts
  rw [List.getElem?_concat_length]
  rfl

theorem table_nil (size : ℕ) : Table (List.replicate size 0) [] := by
  apply Linked.zero
  intro b
  unfold heads
  rw [List.getD_eq_getElem?_getD, List.getElem?_replicate]
  split <;> rfl

/-- An entry more, which is in a chain. -/
theorem Table.link (h : Table propHash prop) (hsize : 0 < propHash.length) (hshort : prop.length < 2 ^ 26)
    (hatom : pr.atom ≠ jsAtomNull) :
    Table (linkProperty propHash prop.length pr).1 (prop ++ [(linkProperty propHash prop.length pr).2]) := by
  have hb : pr.atom &&& (propHash.length - 1) < propHash.length :=
    Nat.lt_of_le_of_lt Nat.and_le_right (Nat.sub_one_lt_of_lt hsize)
  have hhead := h.head_le (pr.atom &&& (propHash.length - 1))
  unfold Table linkProperty
  rw [heads_set hb, List.length_set, List.length_append]
  apply Linked.push (b := pr.atom &&& (propHash.length - 1)) h
  · rw [keys_append_self]
    exact if_neg hatom
  · exact fun i hi => keys_append_of_lt hi
  · rw [nexts_append_self]
    exact Nat.mod_eq_of_lt (Nat.lt_of_le_of_lt hhead hshort)
  · exact fun i hi => nexts_append_of_lt hi
  · exact Function.update_self _ _ _
  · exact fun c hc => Function.update_of_ne hc _ _

/-- An entry more, which is free. -/
theorem Table.free (h : Table propHash prop) (hatom : pr.atom = jsAtomNull) : Table propHash (prop ++ [pr]) := by
  unfold Table
  rw [List.length_append]
  apply Linked.skip h
  · rw [keys_append_self]
    exact if_pos hatom
  · exact fun i hi => keys_append_of_lt hi
  · exact fun i hi => nexts_append_of_lt hi

end Chains

/-! ## Properties in order -/

section Entries

variable {V : Type}

/-- The property of an entry, if there is one: atom, flags and value. -/
def entry (e : JSShapeProperty × V) : Option (ℕ × ℕ × V) :=
  if e.1.atom = jsAtomNull then none else some (e.1.atom, e.1.flags, e.2)

/-- The properties of an object, in order. -/
def entries (prop : List JSShapeProperty) (values : List V) : List (ℕ × ℕ × V) :=
  (prop.zip values).filterMap entry

variable {prop prop' l₁ l₂ : List JSShapeProperty} {values v₁ v₂ : List V} {pr : JSShapeProperty} {v : V}

theorem entries_append (h : l₁.length = v₁.length) :
    entries (l₁ ++ l₂) (v₁ ++ v₂) = entries l₁ v₁ ++ entries l₂ v₂ := by
  unfold entries
  rw [List.zip_append h, List.filterMap_append]

theorem entries_cons :
    entries (pr :: prop) (v :: values) =
      if pr.atom = jsAtomNull then entries prop values
      else (pr.atom, pr.flags, v) :: entries prop values := by
  unfold entries
  rw [List.zip_cons_cons, List.filterMap_cons]
  unfold entry
  split <;> rename_i heq <;> split at heq <;> simp_all

/-- Values that no property has do not matter. -/
theorem entries_take {k : ℕ} (h : prop.length ≤ k) : entries prop (values.take k) = entries prop values := by
  induction prop generalizing values k with
  | nil => rfl
  | cons pr prop ih =>
    cases k with
    | zero => exact absurd h (Nat.not_succ_le_zero _)
    | succ k =>
      cases values with
      | nil => rfl
      | cons v values => rw [List.take_succ_cons, entries_cons, entries_cons, ih (Nat.le_of_succ_le_succ h)]

theorem entries_append_right (h : prop.length ≤ values.length) :
    entries prop (values ++ v₂) = entries prop values := by
  have htake : entries prop ((values ++ v₂).take values.length) = entries prop (values ++ v₂) := entries_take h
  rwa [List.take_left, eq_comm] at htake

/-- The chains do not matter. -/
theorem entries_name (h : prop'.map JSShapeProperty.name = prop.map JSShapeProperty.name) :
    entries prop' values = entries prop values := by
  induction prop generalizing prop' values with
  | nil => rw [List.map_eq_nil_iff.mp h]
  | cons pr prop ih =>
    cases prop' with
    | nil => cases h
    | cons pr' prop' =>
      cases values with
      | nil => rfl
      | cons v values =>
        obtain ⟨hname, hrest⟩ := List.cons.inj h
        have hatom : pr'.atom = pr.atom := congrArg Prod.fst hname
        have hflags : pr'.flags = pr.flags := congrArg Prod.snd hname
        rw [entries_cons, entries_cons, ih hrest, hatom, hflags]

theorem mem_entries {e : ℕ × ℕ × V} (h : e ∈ entries prop values) :
    e.1 ∈ prop.map JSShapeProperty.atom ∧ e.1 ≠ jsAtomNull := by
  obtain ⟨⟨pr, v⟩, hmem, hentry⟩ := List.mem_filterMap.mp h
  unfold entry at hentry
  split at hentry
  · cases hentry
  next hatom =>
    obtain rfl := Option.some.inj hentry
    exact ⟨List.mem_map_of_mem (List.of_mem_zip hmem).1, hatom⟩

/-- The atoms of the entries that are not free. -/
def liveAtoms (prop : List JSShapeProperty) : List ℕ :=
  (prop.map JSShapeProperty.atom).filter (· ≠ jsAtomNull)

/-- An entry and its value, with those before and after. -/
structure At (prop : List JSShapeProperty) (values : List V) (i : ℕ) (pr : JSShapeProperty) (v : V)
    (l₁ l₂ : List JSShapeProperty) (v₁ v₂ : List V) : Prop where
  prop : prop = l₁ ++ pr :: l₂
  values : values = v₁ ++ v :: v₂
  lengthProp : l₁.length = i
  lengthValues : v₁.length = i

theorem exists_at {i : ℕ} (hpr : prop[i]? = some pr) (hv : values[i]? = some v) :
    ∃ l₁ l₂ v₁ v₂, At prop values i pr v l₁ l₂ v₁ v₂ := by
  obtain ⟨hi, hget⟩ := List.getElem?_eq_some_iff.mp hpr
  obtain ⟨hi', hget'⟩ := List.getElem?_eq_some_iff.mp hv
  refine ⟨prop.take i, prop.drop (i + 1), values.take i, values.drop (i + 1), ?_, ?_, ?_, ?_⟩
  · rw [← hget, List.getElem_cons_drop, List.take_append_drop]
  · rw [← hget', List.getElem_cons_drop, List.take_append_drop]
  · rw [List.length_take]
    omega
  · rw [List.length_take]
    omega

variable {i : ℕ} {v₁ v₂ : List V}

theorem At.set_prop (h : At prop values i pr v l₁ l₂ v₁ v₂) (pr' : JSShapeProperty) :
    prop.set i pr' = l₁ ++ pr' :: l₂ := by
  rw [h.prop, ← h.lengthProp, List.set_append_right _ _ (Nat.le_refl _), Nat.sub_self]
  rfl

theorem At.set_values (h : At prop values i pr v l₁ l₂ v₁ v₂) (v' : V) :
    values.set i v' = v₁ ++ v' :: v₂ := by
  rw [h.values, ← h.lengthValues, List.set_append_right _ _ (Nat.le_refl _), Nat.sub_self]
  rfl

theorem At.entries_eq (h : At prop values i pr v l₁ l₂ v₁ v₂) (pr' : JSShapeProperty) (v' : V) :
    entries (l₁ ++ pr' :: l₂) (v₁ ++ v' :: v₂) =
      entries l₁ v₁ ++ ((entry (pr', v')).toList ++ entries l₂ v₂) := by
  rw [entries_append (h.lengthProp.trans h.lengthValues.symm), entries_cons]
  unfold entry
  split <;> rfl

/-- No other entry has the atom. -/
theorem At.ne (h : At prop values i pr v l₁ l₂ v₁ v₂) (hnodup : (liveAtoms prop).Nodup)
    (hatom : pr.atom ≠ jsAtomNull) :
    (∀ e ∈ entries l₁ v₁, e.1 ≠ pr.atom) ∧ ∀ e ∈ entries l₂ v₂, e.1 ≠ pr.atom := by
  have hlive : liveAtoms prop = liveAtoms l₁ ++ pr.atom :: liveAtoms l₂ := by
    unfold liveAtoms
    rw [h.prop, List.map_append, List.map_cons, List.filter_append,
      List.filter_cons_of_pos (by simpa using hatom)]
  rw [hlive] at hnodup
  have hnot := (List.nodup_middle.mp hnodup).notMem
  have hmem : ∀ {l v₀} {e : ℕ × ℕ × V}, e ∈ entries l v₀ → e.1 ∈ liveAtoms l := fun he =>
    List.mem_filter.mpr ⟨(mem_entries he).1, by simpa using (mem_entries he).2⟩
  exact ⟨fun e he heq => hnot (heq ▸ List.mem_append_left _ (hmem he)),
    fun e he heq => hnot (heq ▸ List.mem_append_right _ (hmem he))⟩

/-! ## What is read and written -/

/-- The flags and the value of a property. -/
def lookup (atom : ℕ) (props : List (ℕ × ℕ × V)) : Option (ℕ × V) :=
  (props.find? fun e => e.1 = atom).map Prod.snd

theorem lookup_of_ne {atom : ℕ} {props : List (ℕ × ℕ × V)} (h : ∀ e ∈ props, e.1 ≠ atom) :
    lookup atom props = none := by
  unfold lookup
  rw [Option.map_eq_none_iff, List.find?_eq_none]
  intro e he
  simpa using h e he

theorem lookup_entries_none {atom : ℕ} (h : atom ∉ prop.map JSShapeProperty.atom) :
    lookup atom (entries prop values) = none :=
  lookup_of_ne fun _ he heq => h (heq ▸ (mem_entries he).1)

theorem lookup_entries (hpr : prop[i]? = some pr) (hv : values[i]? = some v)
    (hnodup : (liveAtoms prop).Nodup) (hatom : pr.atom ≠ jsAtomNull) :
    lookup pr.atom (entries prop values) = some (pr.flags, v) := by
  obtain ⟨l₁, l₂, v₁, v₂, hat⟩ := exists_at hpr hv
  have hne := (hat.ne hnodup hatom).1
  rw [hat.prop, hat.values, hat.entries_eq]
  unfold lookup entry
  rw [if_neg hatom, List.find?_append, List.find?_eq_none.mpr fun e he => by simpa using hne e he]
  simp

/-- The flags and the value of a property become others. -/
def overwrite (atom : ℕ) (new : ℕ × V → ℕ × V) (props : List (ℕ × ℕ × V)) : List (ℕ × ℕ × V) :=
  props.map fun e => if e.1 = atom then (e.1, new e.2) else e

theorem overwrite_of_ne {atom : ℕ} {new : ℕ × V → ℕ × V} {props : List (ℕ × ℕ × V)}
    (h : ∀ e ∈ props, e.1 ≠ atom) : overwrite atom new props = props := by
  have hid : ∀ e ∈ props, (if e.1 = atom then (e.1, new e.2) else e) = id e := fun e he => if_neg (h e he)
  unfold overwrite
  rw [List.map_congr_left hid, List.map_id]

theorem entries_overwrite (new : ℕ × V → ℕ × V) (hpr : prop[i]? = some pr) (hv : values[i]? = some v)
    (hnodup : (liveAtoms prop).Nodup) (hatom : pr.atom ≠ jsAtomNull) :
    entries (prop.set i { pr with flags := (new (pr.flags, v)).1 }) (values.set i (new (pr.flags, v)).2) =
      overwrite pr.atom new (entries prop values) := by
  obtain ⟨l₁, l₂, v₁, v₂, hat⟩ := exists_at hpr hv
  obtain ⟨hne₁, hne₂⟩ := hat.ne hnodup hatom
  rw [hat.set_prop, hat.set_values, hat.entries_eq]
  conv_rhs => rw [hat.prop, hat.values, hat.entries_eq]
  unfold entry
  rw [if_neg hatom, if_neg hatom]
  have happend : ∀ a b : List (ℕ × ℕ × V), overwrite pr.atom new (a ++ b) =
      overwrite pr.atom new a ++ overwrite pr.atom new b := fun a b => List.map_append
  rw [happend, happend, overwrite_of_ne hne₁, overwrite_of_ne hne₂]
  congr 2
  show _ = [if pr.atom = pr.atom then _ else _]
  rw [if_pos rfl]
  rfl

/-- The property goes. -/
def remove (atom : ℕ) (props : List (ℕ × ℕ × V)) : List (ℕ × ℕ × V) := props.filter fun e => e.1 ≠ atom

theorem remove_of_ne {atom : ℕ} {props : List (ℕ × ℕ × V)} (h : ∀ e ∈ props, e.1 ≠ atom) :
    remove atom props = props := by
  apply List.filter_eq_self.mpr
  intro e he
  simpa using h e he

theorem entries_remove {free : JSShapeProperty} {v' : V} (hpr : prop[i]? = some pr) (hv : values[i]? = some v)
    (hnodup : (liveAtoms prop).Nodup) (hatom : pr.atom ≠ jsAtomNull) (hfree : free.atom = jsAtomNull) :
    entries (prop.set i free) (values.set i v') = remove pr.atom (entries prop values) := by
  obtain ⟨l₁, l₂, v₁, v₂, hat⟩ := exists_at hpr hv
  obtain ⟨hne₁, hne₂⟩ := hat.ne hnodup hatom
  rw [hat.set_prop, hat.set_values, hat.entries_eq]
  conv_rhs => rw [hat.prop, hat.values, hat.entries_eq]
  unfold entry
  rw [if_pos hfree, if_neg hatom]
  have happend : ∀ a b : List (ℕ × ℕ × V), remove pr.atom (a ++ b) = remove pr.atom a ++ remove pr.atom b :=
    fun a b => List.filter_append _ _
  have hself : remove pr.atom [(pr.atom, pr.flags, v)] = [] := List.filter_cons_of_neg (by simp)
  rw [happend, remove_of_ne hne₁]
  show _ = _ ++ remove pr.atom ([(pr.atom, pr.flags, v)] ++ entries l₂ v₂)
  rw [happend, remove_of_ne hne₂, hself]
  rfl

end Entries

/-! ## Shapes -/

/-- What holds of each shape. -/
structure JSShape.WF (sh : JSShape) : Prop where
  size : 0 < sh.propHash.length
  room : sh.prop.length ≤ sh.propSize
  short : sh.prop.length < 2 ^ 26
  table : Table sh.propHash sh.prop
  distinct : (liveAtoms sh.prop).Nodup
  deleted : sh.deletedPropCount = (sh.prop.map JSShapeProperty.atom).count jsAtomNull
  hashed : sh.isHashed = true → sh.deletedPropCount = 0
  small : ∀ pr ∈ sh.prop, jsAtomIsTaggedInt pr.atom = true → sh.hasSmallArrayIndex = true
  hash : sh.hash < 2 ^ 32

section Finding

variable {prop : List JSShapeProperty} {atom h : ℕ} {l : List ℕ}

/-- The loop along a chain. -/
theorem findLoop_ok (atom : ℕ) (hchain : Chain (nexts prop) h l) (hlt : ∀ i ∈ l, i < prop.length) {fuel : ℕ}
    (hfuel : l.length ≤ fuel) (lpr : Option ℕ) :
    (findLoop prop atom fuel h lpr = some none ∧ ∀ i ∈ l, ∀ pr, prop[i]? = some pr → pr.atom ≠ atom) ∨
      ∃ l₁ i l₂ pr, l = l₁ ++ i :: l₂ ∧ prop[i]? = some pr ∧ pr.atom = atom ∧
        findLoop prop atom fuel h lpr = some (some (i, l₁.getLast?.or lpr)) := by
  induction l generalizing h fuel lpr with
  | nil =>
    obtain rfl : h = 0 := hchain
    refine .inl ⟨?_, fun i hi => absurd hi List.not_mem_nil⟩
    cases fuel <;> rfl
  | cons i l ih =>
    obtain ⟨rfl, hchain⟩ := hchain
    cases fuel with
    | zero => exact absurd hfuel (Nat.not_succ_le_zero _)
    | succ fuel =>
      have hi : i < prop.length := hlt i List.mem_cons_self
      have hget := List.getElem?_eq_getElem hi
      have hnext : nexts prop i = prop[i].hashNext := by
        unfold nexts
        rw [hget]
        rfl
      rw [hnext] at hchain
      generalize prop[i] = pr at hget hchain
      unfold findLoop
      rw [hget]
      by_cases hatom : pr.atom = atom
      · exact .inr ⟨[], i, l, pr, rfl, hget, hatom, if_pos hatom⟩
      · show (if pr.atom = atom then _ else _) = _ ∧ _ ∨ _
        rw [if_neg hatom]
        rcases ih hchain (fun j hj => hlt j (List.mem_cons_of_mem i hj)) (Nat.le_of_succ_le_succ hfuel)
          (some i) with ⟨hnone, hall⟩ | ⟨l₁, j, l₂, pr', rfl, hget', hatom', hsome⟩
        · refine .inl ⟨hnone, fun j hj pr' hpr' => ?_⟩
          rcases List.mem_cons.mp hj with rfl | hj
          · rw [hget] at hpr'
            exact Option.some.inj hpr' ▸ hatom
          · exact hall j hj pr' hpr'
        · refine .inr ⟨i :: l₁, j, l₂, pr', rfl, hget', hatom', ?_⟩
          show (if pr.atom = atom then _ else _) = _
          rw [if_neg hatom, hsome]
          cases l₁ with
          | nil => rfl
          | cons k l₁ => rw [List.getLast?_cons_cons]; rfl

/-- The chain of an atom. -/
def JSShape.chain (sh : JSShape) (atom : ℕ) : List ℕ :=
  members (keys sh.propHash.length sh.prop) (atom &&& (sh.propHash.length - 1)) sh.prop.length

theorem JSShape.WF.bucket_lt {sh : JSShape} (h : sh.WF) (atom : ℕ) :
    atom &&& (sh.propHash.length - 1) < sh.propHash.length :=
  Nat.lt_of_le_of_lt Nat.and_le_right (Nat.sub_one_lt_of_lt h.size)

/-- **An atom is found in its chain**, if an entry has it. -/
theorem JSShape.find_ok {sh : JSShape} (h : sh.WF) (hatom : atom ≠ jsAtomNull) :
    (sh.find atom = some none ∧ atom ∉ sh.prop.map JSShapeProperty.atom) ∨
      ∃ l₁ i l₂ pr, sh.chain atom = l₁ ++ i :: l₂ ∧ sh.prop[i]? = some pr ∧ pr.atom = atom ∧
        sh.find atom = some (some (i, l₁.getLast?)) := by
  have hb := h.bucket_lt atom
  have hhead : sh.propHash[atom &&& (sh.propHash.length - 1)]? =
      some (heads sh.propHash (atom &&& (sh.propHash.length - 1))) := by
    unfold heads
    rw [List.getD_eq_getElem?_getD, List.getElem?_eq_getElem hb]
    rfl
  have hlt : ∀ i ∈ sh.chain atom, i < sh.prop.length := fun i hi => (mem_members.mp hi).1
  have hfind : sh.find atom = findLoop sh.prop atom sh.prop.length
      (heads sh.propHash (atom &&& (sh.propHash.length - 1))) none := by
    unfold JSShape.find
    rw [hhead]
    rfl
  rw [hfind]
  rcases findLoop_ok atom (h.table _) hlt length_members_le none with
    ⟨hnone, hall⟩ | ⟨l₁, i, l₂, pr, hl, hget, hpr, hsome⟩
  · refine .inl ⟨hnone, fun hmem => ?_⟩
    obtain ⟨pr, hpr, rfl⟩ := List.mem_map.mp hmem
    obtain ⟨i, hi, rfl⟩ := List.getElem_of_mem hpr
    have hget := List.getElem?_eq_getElem hi
    refine hall i (mem_members.mpr ⟨hi, ?_⟩) _ hget rfl
    unfold keys
    rw [hget]
    exact if_neg hatom
  · refine .inr ⟨l₁, i, l₂, pr, hl, hget, hpr, ?_⟩
    rw [hsome, Option.or_none]

end Finding

section Updating

variable {sh : JSShape} {prop l₁ l₂ : List JSShapeProperty} {pr : JSShapeProperty} {atom i : ℕ}

theorem liveAtoms_append (l₁ l₂ : List JSShapeProperty) :
    liveAtoms (l₁ ++ l₂) = liveAtoms l₁ ++ liveAtoms l₂ := by
  unfold liveAtoms
  rw [List.map_append, List.filter_append]

theorem map_atom_of_name {prop' : List JSShapeProperty}
    (h : prop'.map JSShapeProperty.name = prop.map JSShapeProperty.name) :
    prop'.map JSShapeProperty.atom = prop.map JSShapeProperty.atom := by
  have hfst := congrArg (List.map Prod.fst) h
  rwa [List.map_map, List.map_map] at hfst

theorem length_of_atoms {prop' : List JSShapeProperty}
    (h : prop'.map JSShapeProperty.atom = prop.map JSShapeProperty.atom) : prop'.length = prop.length := by
  have hlength := congrArg List.length h
  rwa [List.length_map, List.length_map] at hlength

theorem length_of_name {prop' : List JSShapeProperty}
    (h : prop'.map JSShapeProperty.name = prop.map JSShapeProperty.name) : prop'.length = prop.length :=
  length_of_atoms (map_atom_of_name h)

/-- The same atoms, with flags and chains that may be others. -/
theorem JSShape.WF.rechain (h : sh.WF) {sh' : JSShape} (hsize : 0 < sh'.propHash.length)
    (hatoms : sh'.prop.map JSShapeProperty.atom = sh.prop.map JSShapeProperty.atom)
    (hroom : sh.prop.length ≤ sh'.propSize) (htable : Table sh'.propHash sh'.prop)
    (hdeleted : sh'.deletedPropCount = sh.deletedPropCount)
    (hhashed : sh'.isHashed = true → sh.isHashed = true)
    (hsmall : sh'.hasSmallArrayIndex = sh.hasSmallArrayIndex) (hhash : sh'.hash < 2 ^ 32) : sh'.WF where
  size := hsize
  room := by rwa [length_of_atoms hatoms]
  short := by rw [length_of_atoms hatoms]; exact h.short
  table := htable
  distinct := by
    unfold liveAtoms
    rw [hatoms]
    exact h.distinct
  deleted := by rw [hdeleted, hatoms, h.deleted]
  hashed := fun hh => hdeleted.trans (h.hashed (hhashed hh))
  small := by
    intro pr hpr htagged
    have hmem : pr.atom ∈ sh'.prop.map JSShapeProperty.atom := List.mem_map_of_mem hpr
    rw [hatoms] at hmem
    obtain ⟨pr', hpr', heq⟩ := List.mem_map.mp hmem
    rw [hsmall]
    exact h.small pr' hpr' (heq ▸ htagged)
  hash := hhash

theorem length_linkProperty (propHash : List ℕ) (i : ℕ) (pr : JSShapeProperty) :
    (linkProperty propHash i pr).1.length = propHash.length := List.length_set

/-- **A property that no entry has yet.** -/
theorem JSShape.WF.push (h : sh.WF) (hatom : atom ≠ jsAtomNull)
    (hnew : atom ∉ sh.prop.map JSShapeProperty.atom) (hroom : sh.prop.length < sh.propSize)
    (hshort : sh.prop.length + 1 < 2 ^ 26) (flags : ℕ) : (pushProperty sh atom flags).WF where
  size := by
    show 0 < (linkProperty sh.propHash _ _).1.length
    rw [length_linkProperty]
    exact h.size
  room := by
    show (sh.prop ++ [_]).length ≤ sh.propSize
    rw [List.length_append]
    exact hroom
  short := by
    show (sh.prop ++ [_]).length < 2 ^ 26
    rw [List.length_append]
    exact hshort
  table := h.table.link h.size h.short hatom
  distinct := by
    show (liveAtoms (sh.prop ++ [_])).Nodup
    rw [liveAtoms_append]
    apply List.nodup_append.mpr ⟨h.distinct, List.Nodup.filter _ (List.nodup_singleton _), ?_⟩
    intro a ha b hb heq
    obtain rfl : b = atom := List.mem_singleton.mp (List.mem_of_mem_filter hb)
    exact hnew (heq ▸ List.mem_of_mem_filter ha)
  deleted := by
    show sh.deletedPropCount = ((sh.prop ++ [_]).map JSShapeProperty.atom).count jsAtomNull
    rw [List.map_append, List.count_append, ← h.deleted]
    exact (Nat.add_eq_left.mpr (List.count_eq_zero_of_not_mem fun hmem =>
      hatom (List.mem_singleton.mp hmem).symm)).symm
  hashed := h.hashed
  small := by
    intro pr hpr htagged
    show (sh.hasSmallArrayIndex || jsAtomIsTaggedInt atom) = true
    rcases List.mem_append.mp hpr with hpr | hpr
    · rw [h.small pr hpr htagged, Bool.true_or]
    · obtain rfl := List.mem_singleton.mp hpr
      rw [show jsAtomIsTaggedInt atom = true from htagged, Bool.or_true]
  hash := h.hash

theorem entries_concat {V : Type} {values : List V} {v : V} (hv : values[prop.length]? = some v)
    (hatom : pr.atom ≠ jsAtomNull) :
    entries (prop ++ [pr]) values = entries prop values ++ [(pr.atom, pr.flags, v)] := by
  obtain ⟨hlt, hget⟩ := List.getElem?_eq_some_iff.mp hv
  have hsplit : values = values.take prop.length ++ v :: values.drop (prop.length + 1) := by
    rw [← hget, List.getElem_cons_drop, List.take_append_drop]
  have hlength : prop.length = (values.take prop.length).length := by
    rw [List.length_take]
    omega
  conv_lhs => rw [hsplit]
  rw [entries_append hlength, entries_take (Nat.le_refl _), entries_cons, if_neg hatom]
  rfl

theorem entries_push {V : Type} {values : List V} {v : V} (hv : values[sh.prop.length]? = some v)
    (hatom : atom ≠ jsAtomNull) (flags : ℕ) :
    entries (pushProperty sh atom flags).prop values = entries sh.prop values ++ [(atom, flags, v)] :=
  entries_concat hv hatom

/-! ### Room for more -/

/-- The chains are built anew, from the first entry on. -/
theorem relinkProperties_ok {propHash : List ℕ} {linked : List JSShapeProperty} (todo : List JSShapeProperty)
    (h : Table propHash linked) (hsize : 0 < propHash.length)
    (hshort : linked.length + todo.length < 2 ^ 26) :
    Table (relinkProperties linked.length todo propHash).1
        (linked ++ (relinkProperties linked.length todo propHash).2) ∧
      (relinkProperties linked.length todo propHash).2.map JSShapeProperty.name =
        todo.map JSShapeProperty.name ∧
      (relinkProperties linked.length todo propHash).1.length = propHash.length := by
  induction todo generalizing propHash linked with
  | nil =>
    refine ⟨?_, rfl, rfl⟩
    rw [relinkProperties, List.append_nil]
    exact h
  | cons pr todo ih =>
    rw [List.length_cons] at hshort
    unfold relinkProperties
    split
    next hatom =>
      have hlink := h.link hsize (by omega) hatom
      have hrest := ih hlink (by rwa [length_linkProperty]) (by rw [List.length_append]; simpa using by omega)
      rw [List.length_append, List.append_assoc, length_linkProperty] at hrest
      exact ⟨hrest.1, congrArg (List.cons pr.name) hrest.2.1, hrest.2.2⟩
    next hatom =>
      have hfree := h.free (Decidable.not_not.mp hatom)
      have hrest := ih hfree hsize (by rw [List.length_append]; simpa using by omega)
      rw [List.length_append, List.append_assoc] at hrest
      exact ⟨hrest.1, congrArg (List.cons pr.name) hrest.2.1, hrest.2.2⟩

theorem le_growHash (fuel size n : ℕ) : size ≤ growHash fuel size n := by
  induction fuel generalizing size with
  | zero => exact Nat.le_refl size
  | succ fuel ih =>
    unfold growHash
    split
    · exact Nat.le_trans (by omega) (ih (2 * size))
    · exact Nat.le_refl size

theorem shrinkHash_pos {n : ℕ} (hn : 0 < n) (fuel : ℕ) {size : ℕ} (hsize : 0 < size) :
    0 < shrinkHash fuel size n := by
  induction fuel generalizing size with
  | zero => exact hsize
  | succ fuel ih =>
    unfold shrinkHash
    split
    · exact ih (by omega)
    · exact hsize

/-- The fields of a shape that its chains have nothing to do with. -/
structure SameShape (sh sh' : JSShape) : Prop where
  refCount : sh'.refCount = sh.refCount
  isHashed : sh'.isHashed = sh.isHashed
  hash : sh'.hash = sh.hash
  proto : sh'.proto = sh.proto

/-- **Room for more properties.** -/
theorem JSShape.WF.resize (h : sh.WF) {count : ℕ} (hcount : sh.prop.length ≤ count) :
    (resizedShape sh count).WF ∧ SameShape sh (resizedShape sh count) ∧
      (resizedShape sh count).prop.map JSShapeProperty.name = sh.prop.map JSShapeProperty.name ∧
      count ≤ (resizedShape sh count).propSize := by
  have hroom : sh.prop.length ≤ max count (sh.propSize * 3 / 2) := Nat.le_trans hcount (Nat.le_max_left _ _)
  unfold resizedShape
  dsimp only
  split
  next hgrow =>
    have hpos : 0 < (List.replicate (growHash (max count (sh.propSize * 3 / 2)) sh.propHash.length
        (max count (sh.propSize * 3 / 2))) 0).length := by
      rw [List.length_replicate]
      exact Nat.lt_of_lt_of_le h.size (le_growHash _ _ _)
    obtain ⟨htable, hname, hlength⟩ := relinkProperties_ok sh.prop (table_nil _) hpos
      (by simpa using h.short)
    have hsize := hlength ▸ hpos
    exact ⟨h.rechain hsize (map_atom_of_name hname) hroom htable rfl id rfl h.hash, ⟨rfl, rfl, rfl, rfl⟩, hname,
      Nat.le_max_left _ _⟩
  next =>
    exact ⟨h.rechain h.size rfl hroom h.table rfl id rfl h.hash, ⟨rfl, rfl, rfl, rfl⟩, rfl,
      Nat.le_max_left _ _⟩

/-! ### An entry that goes -/

theorem nexts_set (hi : i < prop.length) (pr' : JSShapeProperty) :
    nexts (prop.set i pr') = Function.update (nexts prop) i pr'.hashNext := by
  funext j
  unfold nexts
  rw [List.getElem?_set, Function.update_apply]
  by_cases hj : i = j
  · subst hj
    rw [if_pos rfl, if_pos hi, if_pos rfl]
    rfl
  · rw [if_neg hj, if_neg (Ne.symm hj)]

theorem keys_set {size : ℕ} (hi : i < prop.length) (pr' : JSShapeProperty) :
    keys size (prop.set i pr') = Function.update (keys size prop) i
      (if pr'.atom = jsAtomNull then none else some (pr'.atom &&& (size - 1))) := by
  funext j
  unfold keys
  rw [List.getElem?_set, Function.update_apply]
  by_cases hj : i = j
  · subst hj
    rw [if_pos rfl, if_pos hi, if_pos rfl]
    rfl
  · rw [if_neg hj, if_neg (Ne.symm hj)]

/-- An entry with its chain as it was. -/
theorem keys_set_same {size : ℕ} {pr' : JSShapeProperty} (hpr : prop[i]? = some pr)
    (hatom : pr'.atom = pr.atom) : keys size (prop.set i pr') = keys size prop := by
  have hi := (List.getElem?_eq_some_iff.mp hpr).1
  rw [keys_set hi]
  apply Function.update_eq_self_iff.mpr
  unfold keys
  rw [hpr, hatom]
  rfl

theorem nexts_set_same {pr' : JSShapeProperty} (hpr : prop[i]? = some pr)
    (hnext : pr'.hashNext = pr.hashNext) : nexts (prop.set i pr') = nexts prop := by
  have hi := (List.getElem?_eq_some_iff.mp hpr).1
  rw [nexts_set hi]
  apply Function.update_eq_self_iff.mpr
  unfold nexts
  rw [hpr]
  exact hnext

/-- What is said of the atoms, when an entry becomes free. -/
theorem atoms_free {free : JSShapeProperty} (hpr : prop[i]? = some pr) (hatom : pr.atom ≠ jsAtomNull)
    (hfree : free.atom = jsAtomNull) :
    (liveAtoms (prop.set i free)).Sublist (liveAtoms prop) ∧
      ((prop.set i free).map JSShapeProperty.atom).count jsAtomNull =
        (prop.map JSShapeProperty.atom).count jsAtomNull + 1 := by
  obtain ⟨l₁, l₂, v₁, v₂, hat⟩ := exists_at hpr hpr
  rw [hat.set_prop, hat.prop]
  have hlive : ∀ pr' l, liveAtoms (pr' :: l) =
      (if pr'.atom = jsAtomNull then [] else [pr'.atom]) ++ liveAtoms l := by
    intro pr' l
    unfold liveAtoms
    rw [List.map_cons, List.filter_cons]
    by_cases hnull : pr'.atom = jsAtomNull <;> simp [hnull]
  constructor
  · rw [liveAtoms_append, liveAtoms_append, hlive free, hlive pr, if_pos hfree, if_neg hatom]
    exact (List.sublist_cons_self _ _).append_left _
  · rw [List.map_append, List.map_append, List.count_append, List.count_append, List.map_cons, List.map_cons,
      hfree, List.count_cons_self, List.count_cons_of_ne hatom, Nat.add_assoc]

/-- What an entry that goes leaves. -/
structure Removed (sh sh' : JSShape) (i : ℕ) (pr : JSShapeProperty) : Prop where
  same : SameShape sh sh'
  propSize : sh'.propSize = sh.propSize
  name : sh'.prop.map JSShapeProperty.name =
    (sh.prop.set i { pr with flags := 0, atom := jsAtomNull }).map JSShapeProperty.name

theorem JSShape.WF.removed {sh' : JSShape} (h : sh.WF) (hunhashed : sh.isHashed = false)
    (hpr : sh.prop[i]? = some pr) (hatom : pr.atom ≠ jsAtomNull) (hr : Removed sh sh' i pr)
    (hsize : 0 < sh'.propHash.length) (htable : Table sh'.propHash sh'.prop)
    (hdeleted : sh'.deletedPropCount = sh.deletedPropCount + 1)
    (hsmall : sh'.hasSmallArrayIndex = sh.hasSmallArrayIndex) : sh'.WF := by
  have hfree : ({ pr with flags := 0, atom := jsAtomNull } : JSShapeProperty).atom = jsAtomNull := rfl
  obtain ⟨hlive, hcount⟩ := atoms_free hpr hatom hfree
  have hlength := length_of_name hr.name
  rw [List.length_set] at hlength
  have hatoms := map_atom_of_name hr.name
  refine ⟨hsize, ?_, ?_, htable, ?_, ?_, ?_, ?_, hr.same.hash ▸ h.hash⟩
  · rw [hlength, hr.propSize]
    exact h.room
  · rw [hlength]
    exact h.short
  · unfold liveAtoms
    rw [hatoms]
    exact hlive.nodup h.distinct
  · rw [hdeleted, hatoms, hcount, h.deleted]
  · intro hhashed
    rw [hr.same.isHashed, hunhashed] at hhashed
    cases hhashed
  · intro pr' hpr' htagged
    have hmem : pr'.atom ∈ sh'.prop.map JSShapeProperty.atom := List.mem_map_of_mem hpr'
    rw [hatoms] at hmem
    obtain ⟨pr'', hpr'', heq⟩ := List.mem_map.mp hmem
    rw [hsmall]
    rcases List.mem_or_eq_of_mem_set hpr'' with hmem | rfl
    · exact h.small pr'' hmem (heq ▸ htagged)
    · rw [← heq] at htagged
      change jsAtomIsTaggedInt jsAtomNull = true at htagged
      exact absurd htagged (by decide)

/-- **An entry is removed from its chain.** -/
theorem JSShape.WF.remove (h : sh.WF) (hunhashed : sh.isHashed = false) {l₁ l₂ : List ℕ}
    (hatom : atom ≠ jsAtomNull) (hchain : sh.chain atom = l₁ ++ i :: l₂) (hpr : sh.prop[i]? = some pr)
    (hpratom : pr.atom = atom) :
    ∃ sh', removeEntry sh (atom &&& (sh.propHash.length - 1)) i l₁.getLast? = some sh' ∧ sh'.WF ∧
      Removed sh sh' i pr := by
  have hb := h.bucket_lt atom
  have hi := (List.getElem?_eq_some_iff.mp hpr).1
  have hnext : nexts sh.prop i = pr.hashNext := by
    unfold nexts
    rw [hpr]
    rfl
  have hatom' : pr.atom ≠ jsAtomNull := hpratom ▸ hatom
  unfold JSShape.chain at hchain
  rcases List.eq_nil_or_concat l₁ with rfl | ⟨l₁, j, rfl⟩
  · -- The entry is the first of its chain.
    have hr : Removed sh { sh with
        propHash := sh.propHash.set (atom &&& (sh.propHash.length - 1)) pr.hashNext
        prop := sh.prop.set i { pr with flags := 0, atom := jsAtomNull }
        deletedPropCount := sh.deletedPropCount + 1 } i pr := ⟨⟨rfl, rfl, rfl, rfl⟩, rfl, rfl⟩
    refine ⟨_, ?_, h.removed hunhashed hpr hatom' hr ?_ ?_ rfl rfl, hr⟩
    · unfold removeEntry
      rw [hpr]
      rfl
    · show 0 < (sh.propHash.set _ _).length
      rw [List.length_set]
      exact h.size
    · have hlinked := h.table.unlink_head hchain
      rw [hnext] at hlinked
      have hnexts : nexts (sh.prop.set i { pr with flags := 0, atom := jsAtomNull }) = nexts sh.prop :=
        nexts_set_same hpr rfl
      unfold Table
      dsimp only
      rw [heads_set hb, List.length_set, List.length_set, keys_set hi, if_pos rfl, hnexts]
      exact hlinked
  · -- The entry before it takes its place.
    rw [List.concat_eq_append] at hchain ⊢
    rw [List.append_assoc] at hchain
    have hj : j ∈ members (keys sh.propHash.length sh.prop) (atom &&& (sh.propHash.length - 1))
        sh.prop.length := by
      rw [hchain]
      exact List.mem_append_right l₁ List.mem_cons_self
    have hjlt := (mem_members.mp hj).1
    have hprev := List.getElem?_eq_getElem hjlt
    generalize sh.prop[j] = prev at hprev
    have hne : j ≠ i := by
      have hnodup : (members (keys sh.propHash.length sh.prop) (atom &&& (sh.propHash.length - 1))
        sh.prop.length).Nodup := nodup_members
      rw [hchain] at hnodup
      rintro rfl
      exact (List.nodup_cons.mp (List.nodup_append.mp hnodup).2.1).1 List.mem_cons_self
    have hpr' : (sh.prop.set j { prev with hashNext := pr.hashNext })[i]? = some pr := by
      rw [List.getElem?_set_ne hne, hpr]
    have hr : Removed sh { sh with
        prop := (sh.prop.set j { prev with hashNext := pr.hashNext }).set i
          { pr with flags := 0, atom := jsAtomNull }
        deletedPropCount := sh.deletedPropCount + 1 } i pr := by
      refine ⟨⟨rfl, rfl, rfl, rfl⟩, rfl, ?_⟩
      show List.map _ ((sh.prop.set j _).set i _) = _
      rw [List.map_set, List.map_set, List.map_set]
      congr 1
      have hsame : sh.prop.set j prev = sh.prop := by
        obtain ⟨_, rfl⟩ := List.getElem?_eq_some_iff.mp hprev
        exact List.set_getElem_self hjlt
      conv_rhs => rw [← hsame, List.map_set]
      rfl
    refine ⟨_, ?_, h.removed hunhashed hpr hatom' hr h.size ?_ rfl rfl, hr⟩
    · unfold removeEntry
      rw [hpr, List.getLast?_concat]
      show (sh.prop[j]?).bind _ = _
      rw [hprev]
      rfl
    · have hlinked := h.table.unlink hchain
      rw [hnext] at hlinked
      have hi' := (List.getElem?_eq_some_iff.mp hpr').1
      have hkeys : keys sh.propHash.length (sh.prop.set j { prev with hashNext := pr.hashNext }) =
          keys sh.propHash.length sh.prop := keys_set_same hprev rfl
      have hnexts : nexts ((sh.prop.set j { prev with hashNext := pr.hashNext }).set i
          { pr with flags := 0, atom := jsAtomNull }) =
          nexts (sh.prop.set j { prev with hashNext := pr.hashNext }) := nexts_set_same hpr' rfl
      unfold Table
      dsimp only
      rw [List.length_set, List.length_set, keys_set hi', if_pos rfl, hkeys, hnexts, nexts_set hjlt]
      exact hlinked

/-! ### Without the free entries -/

/-- **The entries that are kept**, each with its value. -/
theorem compactLoop_ok {V : Type} {propHash : List ℕ} {kept : List JSShapeProperty}
    (todo : List JSShapeProperty) (values : List V) (i : ℕ) (h : Table propHash kept)
    (hsize : 0 < propHash.length)
    (hshort : kept.length + todo.length < 2 ^ 26) (hi : kept.length ≤ i)
    (hvalues : i + todo.length ≤ values.length) :
    ∃ propHash' kept' values', compactLoop i todo propHash kept values = some (propHash', kept', values') ∧
      Table propHash' kept' ∧ propHash'.length = propHash.length ∧ values'.length = values.length ∧
      kept'.map JSShapeProperty.atom = kept.map JSShapeProperty.atom ++ liveAtoms todo ∧
      entries kept' values' = entries kept values ++ entries todo (values.drop i) := by
  induction todo generalizing i propHash kept values with
  | nil =>
    refine ⟨propHash, kept, values, rfl, h, rfl, rfl, (List.append_nil _).symm, ?_⟩
    exact (List.append_nil _).symm
  | cons pr todo ih =>
    rw [List.length_cons] at hshort hvalues
    have hlt : i < values.length := by omega
    have hdrop : values.drop i = values[i] :: values.drop (i + 1) := List.drop_eq_getElem_cons hlt
    rw [hdrop, entries_cons]
    unfold compactLoop
    have hlive : liveAtoms (pr :: todo) =
        if pr.atom = jsAtomNull then liveAtoms todo else pr.atom :: liveAtoms todo := by
      unfold liveAtoms
      rw [List.map_cons, List.filter_cons]
      by_cases hnull : pr.atom = jsAtomNull <;> simp [hnull]
    rw [hlive]
    split
    next hatom =>
      -- A property that is there moves down to the ones that are kept, with its value.
      have hlink := h.link hsize (by omega) hatom
      have hset : (values.set kept.length values[i])[kept.length]? = some values[i] := by
        rw [List.getElem?_set, if_pos rfl, if_pos (by omega)]
      have hbefore : entries kept (values.set kept.length values[i]) = entries kept values := by
        rw [← entries_take (Nat.le_refl _), List.take_set_of_le (Nat.le_refl _), entries_take (Nat.le_refl _)]
      have hafter : (values.set kept.length values[i]).drop (i + 1) = values.drop (i + 1) :=
        List.drop_set_of_lt (by omega)
      obtain ⟨propHash', kept', values', hloop, htable, hlength, hvlength, hatoms, hentries⟩ :=
        ih (values.set kept.length values[i]) (i + 1) hlink (by rwa [length_linkProperty])
          (by rw [List.length_append]; simpa using by omega)
          (by rw [List.length_append]; simpa using by omega) (by rw [List.length_set]; omega)
      refine ⟨propHash', kept', values', ?_, htable, hlength.trans (length_linkProperty _ _ _),
        hvlength.trans List.length_set, ?_, ?_⟩
      · rw [List.getElem?_eq_getElem hlt]
        exact hloop
      · rw [hatoms, List.map_append, List.append_assoc]
        rfl
      · have hconcat : entries (kept ++ [(linkProperty propHash kept.length pr).2])
            (values.set kept.length values[i]) =
            entries kept (values.set kept.length values[i]) ++ [(pr.atom, pr.flags, values[i])] :=
          entries_concat hset hatom
        rw [hentries, hafter, hconcat, hbefore, List.append_assoc]
        rfl
    next hatom =>
      -- A deleted one is passed over.
      have hnull := Decidable.not_not.mp hatom
      obtain ⟨propHash', kept', values', hloop, htable, hlength, hvlength, hatoms, hentries⟩ :=
        ih values (i + 1) h hsize (by omega) (by omega) (by omega)
      refine ⟨propHash', kept', values', hloop, htable, hlength, hvlength, ?_, ?_⟩
      · rw [hatoms, if_pos hnull]
      · rw [hentries, if_pos hnull]

theorem length_liveAtoms (prop : List JSShapeProperty) :
    (liveAtoms prop).length = prop.length - (prop.map JSShapeProperty.atom).count jsAtomNull := by
  have hsum := List.length_eq_length_filter_add (l := prop.map JSShapeProperty.atom) (· == jsAtomNull)
  have hcount : ((prop.map JSShapeProperty.atom).filter (· == jsAtomNull)).length =
      (prop.map JSShapeProperty.atom).count jsAtomNull := (List.count_eq_length_filter).symm
  have hnot : ((prop.map JSShapeProperty.atom).filter fun a => !(a == jsAtomNull)) = liveAtoms prop := by
    unfold liveAtoms
    congr 1
    funext a
    by_cases ha : a = jsAtomNull <;> simp [ha]
  rw [hcount, hnot, List.length_map] at hsum
  omega

/-- The shape that `compact_properties` makes. -/
def compactedShape (sh : JSShape) (propHash : List ℕ) (kept : List JSShapeProperty) : JSShape :=
  { sh with
    propHash, propSize := max 2 (sh.prop.length - sh.deletedPropCount), deletedPropCount := 0, prop := kept }

/-- **No entry of the shape is free after it.** -/
theorem JSShape.WF.compact {V : Type} (h : sh.WF) {values : List V} (hvalues : sh.prop.length ≤ values.length)
    {newHashSize : ℕ} (hsize : 0 < newHashSize) :
    ∃ propHash kept values',
      compactLoop 0 sh.prop (List.replicate newHashSize 0) [] values = some (propHash, kept, values') ∧
      kept.length = sh.prop.length - sh.deletedPropCount ∧ values'.length = values.length ∧
      (compactedShape sh propHash kept).WF ∧ entries kept values' = entries sh.prop values := by
  obtain ⟨propHash, kept, values', hloop, htable, hlength, hvlength, hatoms, hentries⟩ :=
    compactLoop_ok sh.prop values 0 (table_nil newHashSize) (by simpa using hsize)
      (by simpa using h.short) (Nat.le_refl 0) (by simpa using hvalues)
  have hkept : kept.length = sh.prop.length - sh.deletedPropCount := by
    have hlen := congrArg List.length hatoms
    rw [List.length_map] at hlen
    rw [hlen, h.deleted, ← length_liveAtoms]
    rfl
  have hatoms' : kept.map JSShapeProperty.atom = liveAtoms sh.prop := hatoms
  have hnull : ∀ a ∈ liveAtoms sh.prop, a ≠ jsAtomNull := fun a ha => by
    simpa using (List.mem_filter.mp ha).2
  refine ⟨propHash, kept, values', hloop, hkept, hvlength,
    ⟨?_, ?_, ?_, htable, ?_, ?_, fun _ => rfl, ?_, h.hash⟩, hentries⟩
  · show 0 < propHash.length
    rw [hlength, List.length_replicate]
    exact hsize
  · show kept.length ≤ max 2 _
    rw [hkept]
    exact Nat.le_max_right _ _
  · show kept.length < 2 ^ 26
    rw [hkept]
    exact Nat.lt_of_le_of_lt (Nat.sub_le _ _) h.short
  · show (liveAtoms kept).Nodup
    unfold liveAtoms
    rw [hatoms']
    exact h.distinct.filter _
  · show 0 = (kept.map JSShapeProperty.atom).count jsAtomNull
    rw [hatoms']
    exact (List.count_eq_zero_of_not_mem fun hmem => hnull _ hmem rfl).symm
  · intro pr hpr htagged
    have hmem : pr.atom ∈ kept.map JSShapeProperty.atom := List.mem_map_of_mem hpr
    rw [hatoms'] at hmem
    obtain ⟨pr', hpr', heq⟩ := List.mem_map.mp (List.mem_filter.mp hmem).1
    exact h.small pr' hpr' (heq ▸ htagged)

end Updating

end JSChip.Shapes

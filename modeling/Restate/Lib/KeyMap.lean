import Mathlib

/-! Finite maps as association lists without duplicate keys, the model of a hash map whose
iteration order is not specified, and maps from keys to sets kept as lists without duplicates:
adding a member to the set of a key, and removing one while dropping a set that becomes empty. -/

abbrev KeyMap (κ ν : Type) := AList fun _ : κ => ν

namespace KeyMap

variable {κ α : Type} [DecidableEq κ] [DecidableEq α]

def members (sets : KeyMap κ (List α)) (key : κ) : List α := (sets.lookup key).getD []

def insertMember (sets : KeyMap κ (List α)) (key : κ) (member : α) : KeyMap κ (List α) :=
  sets.insert key ((sets.members key).insert member)

def eraseMember (sets : KeyMap κ (List α)) (key : κ) (member : α) : KeyMap κ (List α) :=
  match sets.lookup key with
  | some set =>
    let set := set.erase member
    if set.isEmpty then sets.erase key else sets.insert key set
  | none => sets

theorem lookup_insert_eq_update {ν : Type} (map : KeyMap κ ν) (key : κ) (value : ν) :
    (fun key' => (map.insert key value).lookup key') =
      Function.update (fun key' => map.lookup key') key (some value) := by
  funext key'
  by_cases same : key' = key
  · subst key'
    simp
  · simp [same, AList.lookup_insert_ne same]

/-- No key is mapped to an empty set. -/
def NoEmptySet (sets : KeyMap κ (List α)) : Prop :=
  ∀ key set, sets.lookup key = some set → set ≠ []

@[simp] theorem members_insertMember (sets : KeyMap κ (List α)) (key key' : κ) (member : α) :
    (sets.insertMember key member).members key' =
      if key' = key then (sets.members key).insert member else sets.members key' := by
  by_cases same : key' = key
  · subst key'
    simp [insertMember, members]
  · simp [insertMember, members, same, AList.lookup_insert_ne same]

@[simp] theorem members_eraseMember (sets : KeyMap κ (List α)) (key key' : κ) (member : α) :
    (sets.eraseMember key member).members key' =
      if key' = key then (sets.members key).erase member else sets.members key' := by
  unfold eraseMember
  cases found : sets.lookup key with
  | none =>
      by_cases same : key' = key
      · subst key'
        simp [members, found]
      · simp [same]
  | some set =>
      simp only
      by_cases same : key' = key
      · subst key'
        split
        · rename_i emptied
          simp only [List.isEmpty_iff] at emptied
          simp [members, found, emptied]
        · simp [members, found]
      · split <;> simp [members, same, AList.lookup_insert_ne same]

theorem insertMember_noEmptySet {sets : KeyMap κ (List α)} (noEmpty : NoEmptySet sets)
    (key : κ) (member : α) : NoEmptySet (sets.insertMember key member) := by
  intro key' set found
  by_cases same : key' = key
  · subst key'
    simp only [insertMember, AList.lookup_insert, Option.some.injEq] at found
    subst set
    exact List.ne_nil_of_mem List.mem_insert_self
  · rw [insertMember, AList.lookup_insert_ne same] at found
    exact noEmpty key' set found

theorem eraseMember_noEmptySet {sets : KeyMap κ (List α)} (noEmpty : NoEmptySet sets)
    (key : κ) (member : α) : NoEmptySet (sets.eraseMember key member) := by
  intro key' set found
  unfold eraseMember at found
  cases current : sets.lookup key with
  | none =>
      rw [current] at found
      exact noEmpty key' set found
  | some old =>
      simp only [current] at found
      by_cases same : key' = key
      · subst key'
        split at found
        · simp at found
        · rename_i nonEmpty
          simp only [AList.lookup_insert, Option.some.injEq] at found
          subst set
          simpa using nonEmpty
      · split at found
        · rw [AList.lookup_erase_ne same] at found
          exact noEmpty key' set found
        · rw [AList.lookup_insert_ne same] at found
          exact noEmpty key' set found

end KeyMap

/-! Updates of one entry in place, as `entry(key).or_default()` and `get_mut(key)` make them, and a
pass over every value in the order of the entries, as a loop over `values_mut` makes it, with an
accumulator the loop's closure threads. -/

namespace KeyMap

variable {κ ν σ : Type} [DecidableEq κ]

/-- The value at the key, or the default when there is none, through `f`. -/
def upsertWith (map : KeyMap κ ν) (key : κ) (default : ν) (f : ν → ν) : KeyMap κ ν :=
  map.insert key (f ((map.lookup key).getD default))

/-- The value at the key through `f`, when the key is there. -/
def modify (map : KeyMap κ ν) (key : κ) (f : ν → ν) : KeyMap κ ν :=
  match map.lookup key with
  | some value => map.insert key (f value)
  | none => map

/-- The value at the key through a closure that also threads an accumulator, when the key is there. -/
def modifyAccum (map : KeyMap κ ν) (key : κ) (f : σ → ν → σ × ν) (acc : σ) : KeyMap κ ν × σ :=
  match map.lookup key with
  | some value => (map.insert key (f acc value).2, (f acc value).1)
  | none => (map, acc)

def mapAccumEntries (f : σ → ν → σ × ν) : List (Sigma fun _ : κ => ν) → σ → List (Sigma fun _ : κ => ν) × σ
  | [], acc => ([], acc)
  | entry :: rest, acc =>
    let (acc, value) := f acc entry.2
    let (rest, acc) := mapAccumEntries f rest acc
    (⟨entry.1, value⟩ :: rest, acc)

omit [DecidableEq κ] in
theorem keys_mapAccumEntries (f : σ → ν → σ × ν) (entries : List (Sigma fun _ : κ => ν)) (acc : σ) :
    (mapAccumEntries f entries acc).1.keys = entries.keys := by
  induction entries generalizing acc with
  | nil => rfl
  | cons entry rest ih => simp [mapAccumEntries, List.keys_cons, ih]

omit [DecidableEq κ] in
theorem nodupKeys_mapAccumEntries (f : σ → ν → σ × ν) (map : KeyMap κ ν) (acc : σ) :
    (mapAccumEntries f map.entries acc).1.NodupKeys := by
  rw [List.NodupKeys, keys_mapAccumEntries]
  exact map.nodupKeys

/-- Every value in turn through the closure, in the order of the entries. -/
def mapAccum (map : KeyMap κ ν) (f : σ → ν → σ × ν) (acc : σ) : KeyMap κ ν × σ :=
  (⟨(mapAccumEntries f map.entries acc).1, nodupKeys_mapAccumEntries f map acc⟩,
    (mapAccumEntries f map.entries acc).2)

@[simp] theorem lookup_upsertWith (map : KeyMap κ ν) (key key' : κ) (default : ν) (f : ν → ν) :
    (map.upsertWith key default f).lookup key' =
      if key' = key then some (f ((map.lookup key).getD default)) else map.lookup key' := by
  by_cases same : key' = key
  · subst key'
    simp [upsertWith]
  · simp [upsertWith, same, AList.lookup_insert_ne same]

@[simp] theorem lookup_modify (map : KeyMap κ ν) (key key' : κ) (f : ν → ν) :
    (map.modify key f).lookup key' = if key' = key then (map.lookup key).map f else map.lookup key' := by
  unfold modify
  by_cases same : key' = key
  · subst key'
    cases found : map.lookup key <;> simp [found]
  · cases map.lookup key <;> simp [same, AList.lookup_insert_ne same]

theorem lookup_modifyAccum {R : ν → ν → Prop} {f : σ → ν → σ × ν} (related : ∀ acc value, R value (f acc value).2)
    (map : KeyMap κ ν) (key key' : κ) (acc : σ) :
    if key' = key then Option.Rel R (map.lookup key') ((map.modifyAccum key f acc).1.lookup key')
    else (map.modifyAccum key f acc).1.lookup key' = map.lookup key' := by
  unfold modifyAccum
  by_cases same : key' = key
  · subst key'
    cases found : map.lookup key with
    | none => simp [found]
    | some value => simpa [found] using Option.Rel.some (related acc value)
  · cases map.lookup key <;> simp [same, AList.lookup_insert_ne same]

theorem dlookup_mapAccumEntries {R : ν → ν → Prop} {f : σ → ν → σ × ν} (related : ∀ acc value, R value (f acc value).2)
    (entries : List (Sigma fun _ : κ => ν)) (acc : σ) (key : κ) :
    Option.Rel R (entries.dlookup key) ((mapAccumEntries f entries acc).1.dlookup key) := by
  induction entries generalizing acc with
  | nil => exact Option.Rel.none
  | cons entry rest ih =>
    obtain ⟨entryKey, value⟩ := entry
    by_cases same : key = entryKey
    · subst key
      simpa [mapAccumEntries] using Option.Rel.some (related acc value)
    · simpa [mapAccumEntries, same] using ih (f acc value).1

theorem lookup_mapAccum {R : ν → ν → Prop} {f : σ → ν → σ × ν} (related : ∀ acc value, R value (f acc value).2)
    (map : KeyMap κ ν) (key : κ) (acc : σ) :
    Option.Rel R (map.lookup key) ((map.mapAccum f acc).1.lookup key) :=
  dlookup_mapAccumEntries related map.entries acc key

end KeyMap

/-! Sums of a weight over the entries, as a counter kept beside a map of live objects is checked
against them: inserting at a key trades the weight of its old value for the new one, and erasing a
key takes its weight out. -/

namespace KeyMap

variable {κ ν : Type} [DecidableEq κ] (weight : κ → ν → Nat)

/-- The sum of the weights of the entries. -/
def total (map : KeyMap κ ν) : Nat := (map.entries.map fun entry => weight entry.1 entry.2).sum

omit [DecidableEq κ] in
@[simp] theorem total_empty : total weight (∅ : KeyMap κ ν) = 0 := rfl

/-- The weight of the value at a key, zero when there is none. -/
def weightAt (map : KeyMap κ ν) (key : κ) : Nat := (map.lookup key).elim 0 (weight key)

theorem weightAt_of_lookup {map : KeyMap κ ν} {key : κ} {value : ν} (found : map.lookup key = some value) :
    weightAt weight map key = weight key value := by
  simp [weightAt, found]

theorem weightAt_of_lookup_none {map : KeyMap κ ν} {key : κ} (missing : map.lookup key = none) :
    weightAt weight map key = 0 := by
  simp [weightAt, missing]

theorem sum_kerase (entries : List (Sigma fun _ : κ => ν)) (key : κ) :
    ((entries.kerase key).map fun entry => weight entry.1 entry.2).sum + (entries.dlookup key).elim 0 (weight key) =
      (entries.map fun entry => weight entry.1 entry.2).sum := by
  induction entries with
  | nil => rfl
  | cons entry rest ih =>
    obtain ⟨entryKey, value⟩ := entry
    by_cases same : key = entryKey
    · subst key
      simp only [List.kerase_cons_eq, List.dlookup_cons_eq, Option.elim_some, List.map_cons, List.sum_cons]
      omega
    · have differ : key ≠ (⟨entryKey, value⟩ : Sigma fun _ : κ => ν).fst := same
      simp only [List.kerase_cons_ne differ, List.dlookup_cons_ne _ _ differ, List.map_cons, List.sum_cons]
      omega

theorem total_erase (map : KeyMap κ ν) (key : κ) :
    total weight (map.erase key) + weightAt weight map key = total weight map :=
  sum_kerase weight map.entries key

theorem total_insert (map : KeyMap κ ν) (key : κ) (value : ν) :
    total weight (map.insert key value) + weightAt weight map key = total weight map + weight key value := by
  have erased := sum_kerase weight map.entries key
  simp only [total, AList.entries_insert, List.map_cons, List.sum_cons, weightAt, AList.lookup] at erased ⊢
  omega

theorem total_congr {weight' : κ → ν → Nat} {map : KeyMap κ ν}
    (same : ∀ key value, map.lookup key = some value → weight key value = weight' key value) :
    total weight map = total weight' map := by
  unfold total
  congr 1
  apply List.map_congr_left
  intro entry member
  exact same entry.1 entry.2 (AList.mem_lookup_iff.mpr member)

theorem forall_lookup_insert {P : ν → Prop} {map : KeyMap κ ν}
    (all : ∀ key value, map.lookup key = some value → P value) {key : κ} {value : ν} (holds : P value) :
    ∀ key' value', (map.insert key value).lookup key' = some value' → P value' := by
  intro key' value' found
  by_cases same : key' = key
  · subst same
    rw [AList.lookup_insert] at found
    cases found
    exact holds
  · rw [AList.lookup_insert_ne same] at found
    exact all key' value' found

theorem forall_lookup_erase {P : ν → Prop} {map : KeyMap κ ν}
    (all : ∀ key value, map.lookup key = some value → P value) (key : κ) :
    ∀ key' value', (map.erase key).lookup key' = some value' → P value' := by
  intro key' value' found
  by_cases same : key' = key
  · subst same
    rw [AList.lookup_erase] at found
    cases found
  · rw [AList.lookup_erase_ne same] at found
    exact all key' value' found

omit [DecidableEq κ] in
theorem total_add (weight' : κ → ν → Nat) (map : KeyMap κ ν) :
    total (fun key value => weight key value + weight' key value) map = total weight map + total weight' map := by
  simp only [total]
  exact List.sum_map_add

end KeyMap

theorem Option.eq_map_of_rel {α β : Type} {g : α → β} {before : Option α} {after : Option β}
    (related : Option.Rel (fun value image => image = g value) before after) : after = before.map g := by
  cases related with
  | none => rfl
  | some image => rw [image]; rfl

theorem Option.cases_of_rel {α β : Type} {R : α → β → Prop} {before : Option α} {after : Option β}
    (related : Option.Rel R before after) :
    before = none ∧ after = none ∨ ∃ value image, before = some value ∧ after = some image ∧ R value image := by
  cases related with
  | none => exact .inl ⟨rfl, rfl⟩
  | some holds => exact .inr ⟨_, _, rfl, rfl, holds⟩

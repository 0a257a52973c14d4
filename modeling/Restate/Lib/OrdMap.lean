import Mathlib

/-! Ordered maps: the entries of a finite map in strictly increasing key order, which is how an
ordered search tree stores and iterates them. Besides the map operations, the lemmas cover what a
caller working at the end of the map needs: inserting past or at the last key, splitting at a key,
and searching from the back. -/

structure OrdMap (κ ν : Type) [LT κ] where
  entries : List (κ × ν)
  sorted : entries.Pairwise fun a b => a.1 < b.1

namespace OrdMap

variable {κ ν : Type} [LinearOrder κ]

def insertEntry (key : κ) (value : ν) : List (κ × ν) → List (κ × ν)
  | [] => [(key, value)]
  | entry :: rest =>
    if key < entry.1 then (key, value) :: entry :: rest
    else if key = entry.1 then (key, value) :: rest
    else entry :: insertEntry key value rest

theorem mem_insertEntry {key : κ} {value : ν} {entry : κ × ν} :
    ∀ {entries : List (κ × ν)}, entry ∈ insertEntry key value entries →
      entry = (key, value) ∨ entry ∈ entries
  | [], found => by simpa [insertEntry] using found
  | first :: rest, found => by
    simp only [insertEntry] at found
    split at found
    · simpa using found
    · split at found
      · simp only [List.mem_cons] at found ⊢
        tauto
      · simp only [List.mem_cons] at found ⊢
        rcases found with here | later
        · exact .inr (.inl here)
        · rcases mem_insertEntry later with new | old
          · exact .inl new
          · exact .inr (.inr old)

theorem insertEntry_sorted (key : κ) (value : ν) :
    ∀ {entries : List (κ × ν)}, entries.Pairwise (fun a b => a.1 < b.1) →
      (insertEntry key value entries).Pairwise fun a b => a.1 < b.1
  | [], _ => List.pairwise_singleton _ _
  | first :: rest, sorted => by
    rw [List.pairwise_cons] at sorted
    obtain ⟨firstLt, restSorted⟩ := sorted
    simp only [insertEntry]
    split
    · next before =>
      refine List.Pairwise.cons ?_ (List.Pairwise.cons firstLt restSorted)
      intro entry found
      rcases List.mem_cons.mp found with here | later
      · exact here ▸ before
      · exact lt_trans before (firstLt entry later)
    · split
      · next _ same =>
        refine List.Pairwise.cons ?_ restSorted
        intro entry later
        exact same ▸ firstLt entry later
      · next notBefore notSame =>
        refine List.Pairwise.cons ?_ (insertEntry_sorted key value restSorted)
        intro entry found
        rcases mem_insertEntry found with new | old
        · subst new
          exact lt_of_le_of_ne (not_lt.mp notBefore) (Ne.symm notSame)
        · exact firstLt entry old

/-- Insert or overwrite the value at a key. -/
def insert (map : OrdMap κ ν) (key : κ) (value : ν) : OrdMap κ ν :=
  ⟨insertEntry key value map.entries, insertEntry_sorted key value map.sorted⟩

def lastKeyValue? (map : OrdMap κ ν) : Option (κ × ν) := map.entries.getLast?

def firstKeyValue? (map : OrdMap κ ν) : Option (κ × ν) := map.entries.head?

def values (map : OrdMap κ ν) : List ν := map.entries.map Prod.snd

/-- The entries below a key and those at or above it; the map keeps the first part, and the
second is what splitting off at the key returns. -/
def splitOff (map : OrdMap κ ν) (key : κ) : OrdMap κ ν × OrdMap κ ν :=
  (⟨map.entries.filter (fun entry => entry.1 < key), map.sorted.filter _⟩,
    ⟨map.entries.filter (fun entry => key ≤ entry.1), map.sorted.filter _⟩)

/-- The last entry satisfying a predicate, searching from the back. -/
def rfind (map : OrdMap κ ν) (p : κ × ν → Bool) : Option (κ × ν) := map.entries.reverse.find? p

/-- The first entry of the range strictly after a key. -/
def nextAfter (map : OrdMap κ ν) (key : κ) : Option (κ × ν) :=
  map.entries.find? fun entry => key < entry.1

/-- The first entry of the range from a key on. -/
def firstFrom? (map : OrdMap κ ν) (key : κ) : Option (κ × ν) :=
  map.entries.find? fun entry => key ≤ entry.1

/-- The first entry of the half-open range from low to high. -/
def firstIn? (map : OrdMap κ ν) (low high : κ) : Option (κ × ν) :=
  map.entries.find? fun entry => low ≤ entry.1 ∧ entry.1 < high

def get? (map : OrdMap κ ν) (key : κ) : Option ν :=
  (map.entries.find? fun entry => entry.1 = key).map Prod.snd

def erase (map : OrdMap κ ν) (key : κ) : OrdMap κ ν :=
  ⟨map.entries.filter fun entry => entry.1 ≠ key, map.sorted.filter _⟩

theorem insertEntry_of_lt {key : κ} {value : ν} :
    ∀ {entries : List (κ × ν)}, (∀ entry ∈ entries, entry.1 < key) →
      insertEntry key value entries = entries ++ [(key, value)]
  | [], _ => rfl
  | first :: rest, below => by
    have firstBelow := below first List.mem_cons_self
    simp only [insertEntry, not_lt.mpr firstBelow.le, if_false, ne_of_gt firstBelow, List.cons_append]
    rw [insertEntry_of_lt fun entry later => below entry (List.mem_cons_of_mem _ later)]

theorem insertEntry_last {key : κ} (value : ν) {old : ν} :
    ∀ {entries : List (κ × ν)}, (entries ++ [(key, old)]).Pairwise (fun a b => a.1 < b.1) →
      insertEntry key value (entries ++ [(key, old)]) = entries ++ [(key, value)]
  | [], _ => by simp [insertEntry]
  | first :: rest, sorted => by
    rw [List.cons_append, List.pairwise_cons] at sorted
    have firstBelow : first.1 < key := sorted.1 (key, old) (by simp)
    simp only [List.cons_append, insertEntry, not_lt.mpr firstBelow.le, if_false,
      ne_of_gt firstBelow]
    rw [insertEntry_last value sorted.2]

theorem lastKeyValue?_eq_some {map : OrdMap κ ν} {last : κ × ν} (found : map.lastKeyValue? = some last) :
    map.entries = map.entries.dropLast ++ [last] := by
  obtain ⟨init, split⟩ := List.getLast?_eq_some_iff.mp found
  simp [split]

theorem le_of_lastKeyValue? {map : OrdMap κ ν} {last : κ × ν} (found : map.lastKeyValue? = some last) :
    ∀ entry ∈ map.entries, entry.1 ≤ last.1 := by
  intro entry member
  have sorted := map.sorted
  rw [lastKeyValue?_eq_some found, List.pairwise_append] at sorted
  rw [lastKeyValue?_eq_some found, List.mem_append] at member
  rcases member with earlier | isLast
  · exact (sorted.2.2 entry earlier last (by simp)).le
  · simp only [List.mem_singleton] at isLast
    exact isLast ▸ le_rfl

theorem insert_of_lastKeyValue?_lt {map : OrdMap κ ν} {last : κ × ν} {key : κ} (value : ν)
    (found : map.lastKeyValue? = some last) (after : last.1 < key) :
    (map.insert key value).entries = map.entries ++ [(key, value)] :=
  insertEntry_of_lt fun entry member => lt_of_le_of_lt (le_of_lastKeyValue? found entry member) after

theorem insert_lastKeyValue? {map : OrdMap κ ν} {key : κ} {old : ν} (value : ν)
    (found : map.lastKeyValue? = some (key, old)) :
    (map.insert key value).entries = map.entries.dropLast ++ [(key, value)] := by
  have split := lastKeyValue?_eq_some found
  have sorted := map.sorted
  rw [split] at sorted
  have replaced := insertEntry_last value sorted
  rw [← split] at replaced
  exact replaced

theorem splitOff_append (map : OrdMap κ ν) (key : κ) :
    (map.splitOff key).1.entries ++ (map.splitOff key).2.entries = map.entries := by
  obtain ⟨entries, sorted⟩ := map
  simp only [splitOff]
  induction entries with
  | nil => rfl
  | cons first rest ih =>
    rw [List.pairwise_cons] at sorted
    by_cases below : first.1 < key
    · have notAbove : ¬key ≤ first.1 := not_le.mpr below
      simp only [List.filter_cons, below, notAbove, decide_true, decide_false, if_true,
        Bool.false_eq_true, if_false, List.cons_append]
      rw [ih sorted.2]
    · -- once one key is not below the split key, no later key is
      have restAbove : ∀ entry ∈ rest, key ≤ entry.1 := fun entry later =>
        (not_lt.mp below).trans (sorted.1 entry later).le
      have above : key ≤ first.1 := not_lt.mp below
      simp only [List.filter_cons, below, above, decide_true, decide_false, if_true,
        Bool.false_eq_true, if_false]
      rw [List.filter_eq_nil_iff.mpr fun entry later => by simpa using restAbove entry later,
        List.filter_eq_self.mpr fun entry later => by simpa using restAbove entry later]
      rfl

theorem lastKeyValue?_splitOff {map : OrdMap κ ν} {last : κ × ν} {key : κ}
    (found : map.lastKeyValue? = some last) (atMost : key ≤ last.1) :
    (map.splitOff key).2.lastKeyValue? = some last := by
  have whole := splitOff_append map key
  have kept : last ∈ (map.splitOff key).2.entries := by
    simp only [splitOff, List.mem_filter, decide_eq_true_eq]
    exact ⟨List.mem_of_getLast? found, atMost⟩
  have nonEmpty : (map.splitOff key).2.entries ≠ [] := List.ne_nil_of_mem kept
  have lastOfWhole : (map.splitOff key).2.entries.getLast? = map.entries.getLast? := by
    rw [← whole, List.getLast?_append]
    obtain ⟨tailLast, isSome⟩ := Option.isSome_iff_exists.mp
      (List.getLast?_isSome.mpr nonEmpty)
    simp [isSome]
  simpa [lastKeyValue?, lastOfWhole] using found

theorem rfind_some {map : OrdMap κ ν} {p : κ × ν → Bool} {entry : κ × ν}
    (found : map.rfind p = some entry) : entry ∈ map.entries ∧ p entry :=
  ⟨List.mem_reverse.mp (List.mem_of_find?_eq_some found), List.find?_some found⟩

theorem rfind_none {map : OrdMap κ ν} {p : κ × ν → Bool} (found : map.rfind p = none) :
    ∀ entry ∈ map.entries, ¬p entry := by
  intro entry member
  exact List.find?_eq_none.mp found entry (List.mem_reverse.mpr member)

theorem eq_of_key_eq : ∀ {entries : List (κ × ν)}, entries.Pairwise (fun a b => a.1 < b.1) →
    ∀ {a b : κ × ν}, a ∈ entries → b ∈ entries → a.1 = b.1 → a = b
  | [], _, _, _, member, _, _ => absurd member List.not_mem_nil
  | first :: rest, sorted, a, b, memberA, memberB, same => by
    rw [List.pairwise_cons] at sorted
    rcases List.mem_cons.mp memberA with rfl | laterA <;>
      rcases List.mem_cons.mp memberB with rfl | laterB
    · rfl
    · exact absurd same (ne_of_lt (sorted.1 b laterB))
    · exact absurd same.symm (ne_of_lt (sorted.1 a laterA))
    · exact eq_of_key_eq sorted.2 laterA laterB same

theorem get?_eq_some_iff {map : OrdMap κ ν} {key : κ} {value : ν} :
    map.get? key = some value ↔ (key, value) ∈ map.entries := by
  constructor
  · intro found
    obtain ⟨entry, located, rfl⟩ := Option.map_eq_some_iff.mp found
    have hasKey : entry.1 = key := by simpa using List.find?_some located
    rw [← hasKey]
    exact List.mem_of_find?_eq_some located
  · intro member
    obtain ⟨entry, located⟩ := Option.isSome_iff_exists.mp
      ((List.find?_isSome (p := fun entry => decide (entry.1 = key))).mpr
        ⟨(key, value), member, by simp⟩)
    have hasKey : entry.1 = key := by simpa using List.find?_some located
    have same := eq_of_key_eq map.sorted (List.mem_of_find?_eq_some located) member hasKey
    rw [get?, located, same]
    rfl

theorem mem_insertEntry_iff {key : κ} {value : ν} :
    ∀ {entries : List (κ × ν)}, entries.Pairwise (fun a b => a.1 < b.1) → ∀ {entry : κ × ν},
      entry ∈ insertEntry key value entries ↔ entry = (key, value) ∨ entry ∈ entries ∧ entry.1 ≠ key
  | [], _, entry => by simp [insertEntry]
  | first :: rest, sorted, entry => by
    rw [List.pairwise_cons] at sorted
    have restAbove : ∀ later ∈ rest, first.1 < later.1 := sorted.1
    simp only [insertEntry]
    split
    · next before =>
      have above : ∀ later ∈ first :: rest, key < later.1 := fun later member => by
        rcases List.mem_cons.mp member with rfl | inRest
        · exact before
        · exact lt_trans before (restAbove later inRest)
      constructor
      · intro member
        rcases List.mem_cons.mp member with here | later
        · exact .inl here
        · exact .inr ⟨later, ne_of_gt (above entry later)⟩
      · rintro (here | ⟨later, -⟩)
        · exact List.mem_cons.mpr (.inl here)
        · exact List.mem_cons_of_mem _ later
    · split
      · next _ same =>
        constructor
        · intro member
          rcases List.mem_cons.mp member with here | later
          · exact .inl here
          · exact .inr ⟨List.mem_cons_of_mem _ later, same ▸ ne_of_gt (restAbove entry later)⟩
        · rintro (here | ⟨member, other⟩)
          · exact List.mem_cons.mpr (.inl here)
          · rcases List.mem_cons.mp member with rfl | later
            · exact absurd same.symm other
            · exact List.mem_cons_of_mem _ later
      · next _ notSame =>
        have ih : entry ∈ insertEntry key value rest ↔
            entry = (key, value) ∨ entry ∈ rest ∧ entry.1 ≠ key :=
          mem_insertEntry_iff sorted.2
        constructor
        · intro member
          rcases List.mem_cons.mp member with here | later
          · exact .inr ⟨List.mem_cons.mpr (.inl here), here ▸ Ne.symm notSame⟩
          · rcases ih.mp later with new | ⟨inRest, other⟩
            · exact .inl new
            · exact .inr ⟨List.mem_cons_of_mem _ inRest, other⟩
        · rintro (new | ⟨member, other⟩)
          · exact List.mem_cons_of_mem _ (ih.mpr (.inl new))
          · rcases List.mem_cons.mp member with rfl | later
            · exact List.mem_cons_self
            · exact List.mem_cons_of_mem _ (ih.mpr (.inr ⟨later, other⟩))

theorem mem_insert_iff {map : OrdMap κ ν} {key : κ} {value : ν} {entry : κ × ν} :
    entry ∈ (map.insert key value).entries ↔
      entry = (key, value) ∨ entry ∈ map.entries ∧ entry.1 ≠ key :=
  mem_insertEntry_iff map.sorted

theorem mem_erase_iff {map : OrdMap κ ν} {key : κ} {entry : κ × ν} :
    entry ∈ (map.erase key).entries ↔ entry ∈ map.entries ∧ entry.1 ≠ key := by
  simp [erase]

theorem firstFrom?_some {map : OrdMap κ ν} {key : κ} {entry : κ × ν}
    (found : map.firstFrom? key = some entry) :
    entry ∈ map.entries ∧ key ≤ entry.1 ∧
      ∀ other ∈ map.entries, key ≤ other.1 → entry.1 ≤ other.1 := by
  obtain ⟨atOrAfter, before, after, split, skipped⟩ := List.find?_eq_some_iff_append.mp found
  have sorted := map.sorted
  rw [split, List.pairwise_append, List.pairwise_cons] at sorted
  refine ⟨List.mem_of_find?_eq_some found, by simpa using atOrAfter, ?_⟩
  intro other member otherAtOrAfter
  rw [split, List.mem_append, List.mem_cons] at member
  rcases member with earlier | rfl | later
  · simpa [otherAtOrAfter] using skipped other earlier
  · exact le_rfl
  · exact (sorted.2.1.1 other later).le

theorem firstFrom?_none {map : OrdMap κ ν} {key : κ} (found : map.firstFrom? key = none) :
    ∀ entry ∈ map.entries, entry.1 < key := by
  intro entry member
  simpa using List.find?_eq_none.mp found entry member

theorem firstIn?_none {map : OrdMap κ ν} {low high : κ} (found : map.firstIn? low high = none) :
    ∀ entry ∈ map.entries, low ≤ entry.1 → high ≤ entry.1 := by
  intro entry member atOrAfter
  have outside := List.find?_eq_none.mp found entry member
  simp only [decide_eq_true_eq, not_and, not_lt] at outside
  exact outside atOrAfter

def empty : OrdMap κ ν := ⟨[], List.Pairwise.nil⟩

/-- Applies a function to the values of the keys in the closed range from low to high. -/
def modifyRange (map : OrdMap κ ν) (low high : κ) (f : ν → ν) : OrdMap κ ν :=
  ⟨map.entries.map fun entry => (entry.1, if low ≤ entry.1 ∧ entry.1 ≤ high then f entry.2 else entry.2),
    List.pairwise_map.mpr (map.sorted.imp id)⟩

theorem keys_modifyRange (map : OrdMap κ ν) (low high : κ) (f : ν → ν) :
    (map.modifyRange low high f).entries.map Prod.fst = map.entries.map Prod.fst := by
  simp [modifyRange, Function.comp_def]

theorem mem_modifyRange {map : OrdMap κ ν} {low high : κ} {f : ν → ν} {entry : κ × ν} :
    entry ∈ (map.modifyRange low high f).entries ↔
      ∃ value, (entry.1, value) ∈ map.entries ∧ entry.2 = if low ≤ entry.1 ∧ entry.1 ≤ high then f value else value := by
  simp only [modifyRange, List.mem_map]
  constructor
  · rintro ⟨⟨key, value⟩, member, rfl⟩
    exact ⟨value, member, rfl⟩
  · rintro ⟨value, member, valueEq⟩
    exact ⟨(entry.1, value), member, Prod.ext rfl valueEq.symm⟩

theorem le_of_rfind_some {map : OrdMap κ ν} {p : κ × ν → Bool} {found : κ × ν} (located : map.rfind p = some found) :
    ∀ entry ∈ map.entries, p entry → entry.1 ≤ found.1 := by
  obtain ⟨-, after, before, reversed, skipped⟩ := List.find?_eq_some_iff_append.mp located
  have split : map.entries = before.reverse ++ found :: after.reverse := by
    rw [← List.reverse_reverse map.entries, reversed]
    simp
  have sorted := map.sorted
  rw [split, List.pairwise_append] at sorted
  intro entry member holds
  rw [split, List.mem_append, List.mem_cons, List.mem_reverse, List.mem_reverse] at member
  rcases member with earlier | rfl | later
  · exact (sorted.2.2 entry (List.mem_reverse.mpr earlier) found List.mem_cons_self).le
  · exact le_rfl
  · exact absurd holds (by simpa using skipped entry later)

end OrdMap

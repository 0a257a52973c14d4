import Mathlib

/-! Counting lemmas for `List.countP` over lists without duplicates: a count that changes at one
element, counts of disjoint predicates, and sums of counts over the keys of a map. They carry
the recount arguments behind incrementally maintained counters. Last, the element `find?` returns
as the first one that satisfies a predicate, the reading of a loop that stops at its first hit, and
on the reversed list the last one, and the first hits of two lists related element by element. -/

namespace List

variable {α : Type} {p q : α → Bool}

theorem countP_or_of_disjoint (l : List α) (disjoint : ∀ x ∈ l, ¬(p x = true ∧ q x = true)) :
    l.countP (fun x => p x || q x) = l.countP p + l.countP q := by
  induction l with
  | nil => rfl
  | cons x rest ih =>
      have restDisjoint : ∀ y ∈ rest, ¬(p y = true ∧ q y = true) :=
        fun y member => disjoint y (mem_cons_of_mem x member)
      have head := disjoint x mem_cons_self
      simp only [countP_cons, ih restDisjoint]
      cases hp : p x <;> cases hq : q x <;> simp_all <;> omega

theorem countP_update [DecidableEq α] {l : List α} {a : α} (nodup : l.Nodup) (mem : a ∈ l)
    (agree : ∀ x ∈ l, x ≠ a → p x = q x) :
    l.countP q + (if p a then 1 else 0) = l.countP p + (if q a then 1 else 0) := by
  induction l with
  | nil => simp at mem
  | cons x rest ih =>
      have parts := nodup_cons.mp nodup
      by_cases head : x = a
      · subst x
        have same : rest.countP p = rest.countP q := by
          apply countP_congr
          intro y member
          have different : y ≠ a := fun equal => parts.1 (equal ▸ member)
          rw [agree y (mem_cons_of_mem a member) different]
        simp only [countP_cons, same]
        omega
      · have restMem : a ∈ rest := by
          rcases mem_cons.mp mem with equal | member
          · exact absurd equal.symm head
          · exact member
        have restAgree : ∀ y ∈ rest, y ≠ a → p y = q y :=
          fun y member => agree y (mem_cons_of_mem x member)
        have step := ih parts.2 restMem restAgree
        simp only [countP_cons, agree x mem_cons_self head]
        omega

theorem imp_of_countP_le {l : List α} (imp : ∀ x ∈ l, p x = true → q x = true)
    (bound : l.countP q ≤ l.countP p) : ∀ x ∈ l, q x = true → p x = true := by
  induction l with
  | nil => simp
  | cons y rest ih =>
      have restImp : ∀ x ∈ rest, p x = true → q x = true :=
        fun x member => imp x (mem_cons_of_mem y member)
      have restLe : rest.countP p ≤ rest.countP q := countP_mono_left restImp
      have headImp := imp y mem_cons_self
      intro x member holds
      simp only [countP_cons] at bound
      rcases mem_cons.mp member with equal | later
      · subst x
        cases hp : p y <;> cases hq : q y <;> simp_all
        omega
      · have restBound : rest.countP q ≤ rest.countP p := by
          cases hp : p y <;> cases hq : q y <;> simp_all
          omega
        exact ih restImp restBound x later holds

theorem sum_countP_keys {ι κ : Type} [DecidableEq κ] (items : List ι) (key : ι → Option κ)
    (r : ι → Bool) {keys : List κ} (nodup : keys.Nodup) :
    (keys.map fun k => items.countP fun i => key i == some k && r i).sum =
      items.countP fun i => decide (∃ k ∈ keys, key i = some k) && r i := by
  induction keys with
  | nil => simp
  | cons k rest ih =>
      have parts := nodup_cons.mp nodup
      have split : (items.countP fun i => decide (∃ k' ∈ k :: rest, key i = some k') && r i) =
          items.countP fun i =>
            (key i == some k && r i) || (decide (∃ k' ∈ rest, key i = some k') && r i) := by
        apply countP_congr
        intro i _
        simp only [mem_cons, exists_eq_or_imp, Bool.and_eq_true, decide_eq_true_eq,
          Bool.or_eq_true, beq_iff_eq]
        tauto
      have disjoint : ∀ i ∈ items, ¬((key i == some k && r i) = true ∧
          (decide (∃ k' ∈ rest, key i = some k') && r i) = true) := by
        intro i _ both
        simp only [Bool.and_eq_true, beq_iff_eq, decide_eq_true_eq] at both
        obtain ⟨⟨keyEq, _⟩, ⟨k', member, keyEq'⟩, _⟩ := both
        rw [keyEq] at keyEq'
        exact parts.1 (Option.some.inj keyEq' ▸ member)
      rw [split, countP_or_of_disjoint items disjoint, map_cons, sum_cons, ih parts.2]

theorem countP_le_countP_and_iff (l : List α) :
    l.countP p ≤ l.countP (fun x => p x && q x) ↔ ∀ x ∈ l, p x = true → q x = true := by
  constructor
  · intro bound x member holds
    have both := imp_of_countP_le (fun y _ hit => by simp_all) bound x member holds
    simp only [Bool.and_eq_true] at both
    exact both.2
  · intro imp
    exact countP_mono_left fun x member holds => by simp [holds, imp x member holds]

theorem countP_sub_countP_and (l : List α) :
    l.countP p - l.countP (fun x => p x && q x) = l.countP (fun x => p x && !q x) := by
  induction l with
  | nil => rfl
  | cons x rest ih =>
      have bound : rest.countP (fun x => p x && q x) ≤ rest.countP p :=
        countP_mono_left (fun y _ holds => by simp_all)
      simp only [countP_cons]
      cases hp : p x <;> cases hq : q x <;> simp_all
      omega

theorem sum_map_entries {ι κ ν : Type} [DecidableEq κ] (items : List ι) (key : ι → Option κ)
    (r : ι → Bool) {entries : List (Σ _ : κ, ν)} (nodup : (entries.map Sigma.fst).Nodup)
    (value : ν → Nat)
    (counts : ∀ entry ∈ entries, value entry.2 = items.countP fun i => key i == some entry.1 && r i) :
    (entries.map fun entry => value entry.2).sum =
      items.countP fun i => decide (∃ entry ∈ entries, key i = some entry.1) && r i := by
  have byKey : (entries.map fun entry => value entry.2) =
      (entries.map Sigma.fst).map fun k => items.countP fun i => key i == some k && r i := by
    rw [map_map]
    exact map_congr_left counts
  rw [byKey, sum_countP_keys items key r nodup]
  apply countP_congr
  intro i _
  simp

theorem length_lt_of_fMajority {domains complete matching : List α} {replication : Nat}
    (completeNodup : complete.Nodup) (matchingNodup : matching.Nodup)
    (disjoint : ∀ d ∈ complete, d ∉ matching) (completeSub : complete ⊆ domains)
    (matchingSub : matching ⊆ domains)
    (fMajority : domains.length - replication + 1 ≤ complete.length) :
    matching.length < replication := by
  have together : (complete ++ matching).Nodup := by
    rw [nodup_append]
    exact ⟨completeNodup, matchingNodup, fun a inComplete b inMatching same =>
      disjoint a inComplete (same ▸ inMatching)⟩
  have bound := (subperm_of_subset together (append_subset.mpr ⟨completeSub, matchingSub⟩)).length_le
  rw [length_append] at bound
  omega

theorem exists_first_iff_of_find? {β : Type} {P : β → Prop} [DecidablePred P] {l : List β} {x : β}
    (found : l.find? (fun y => decide (P y)) = some x) (Q : β → Prop) :
    (∃ before y after, l = before ++ y :: after ∧ (∀ z ∈ before, ¬P z) ∧ P y ∧ Q y) ↔ Q x := by
  constructor
  · rintro ⟨before, y, after, split, skipped, holds, property⟩
    have first : l.find? (fun y => decide (P y)) = some y :=
      find?_eq_some_iff_append.mpr ⟨by simpa using holds, before, after, split, by simpa using skipped⟩
    rw [found, Option.some.injEq] at first
    exact first ▸ property
  · intro property
    obtain ⟨holds, before, after, split, skipped⟩ := find?_eq_some_iff_append.mp found
    exact ⟨before, x, after, split, by simpa using skipped, by simpa using holds, property⟩

theorem find?_reverse_eq_some {l : List α} {x : α} :
    l.reverse.find? p = some x ↔ p x = true ∧ ∃ before after, l = before ++ x :: after ∧ ∀ y ∈ after, p y = false := by
  rw [find?_eq_some_iff_append]
  constructor
  · rintro ⟨holds, front, back, reversed, passed⟩
    rw [reverse_eq_append_iff, reverse_cons, append_assoc, singleton_append] at reversed
    exact ⟨holds, back.reverse, front.reverse, reversed, fun y member => by simpa using passed y (mem_reverse.mp member)⟩
  · rintro ⟨holds, before, after, rfl, passed⟩
    exact ⟨holds, after.reverse, before.reverse, by simp, fun y member => by simpa using passed y (mem_reverse.mp member)⟩

theorem not_exists_first_of_find? {β : Type} {P : β → Prop} [DecidablePred P] {l : List β}
    (found : l.find? (fun y => decide (P y)) = none) (Q : β → Prop) :
    ¬∃ before y after, l = before ++ y :: after ∧ (∀ z ∈ before, ¬P z) ∧ P y ∧ Q y := by
  rintro ⟨before, y, after, split, -, holds, -⟩
  exact find?_eq_none.mp found y (split ▸ mem_append_right before mem_cons_self) (by simpa using holds)

theorem find?_rel {β : Type} {R : α → β → Prop} {r : β → Bool} {l : List α} {l' : List β}
    (related : Forall₂ R l l') (agree : ∀ a b, R a b → p a = r b) :
    Option.Rel R (l.find? p) (l'.find? r) := by
  induction related with
  | nil => exact Option.Rel.none
  | @cons a b rest rest' head _ ih =>
    by_cases hit : p a = true
    · rw [find?_cons_of_pos hit, find?_cons_of_pos (agree a b head ▸ hit)]
      exact Option.Rel.some head
    · rw [find?_cons_of_neg hit, find?_cons_of_neg (agree a b head ▸ hit)]
      exact ih

theorem find?_key_of_mem {κ : Type} [DecidableEq κ] {key : α → κ} {l : List α} {a : α}
    (nodup : (l.map key).Nodup) (mem : a ∈ l) : l.find? (fun b => key b == key a) = some a := by
  induction l with
  | nil => cases mem
  | cons head rest ih =>
    rw [map_cons, nodup_cons] at nodup
    rcases mem_cons.mp mem with rfl | later
    · simp
    · have differ : key head ≠ key a := fun same => nodup.1 (same ▸ mem_map_of_mem later)
      rw [find?_cons_of_neg (by simpa using differ), ih nodup.2 later]

end List

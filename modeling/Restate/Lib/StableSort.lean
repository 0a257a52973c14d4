import Mathlib

/-! Stable order by a key. A list stably sorts another when it lists the other's elements in order
of key, and those of one key in the order the other lists them. A stable sort is a permutation;
appending an element with the largest key, inserting one after the elements of key at most its
own, and filtering by a condition on the key all keep a stable sort of the list changed the same
way. In a list sorted by key, the elements within a bound form a prefix. Sorting by insertion puts
an element found once and ranked above every other one last, whatever the relation does elsewhere. -/

namespace List

variable {α K : Type} [LinearOrder K] (key : α → K)

/-- `sorted` lists the elements of `original` in order of key, and those of equal key in the
order of `original`. -/
structure StablySorts (sorted original : List α) : Prop where
  ordered : sorted.Pairwise fun first second => key first ≤ key second
  stable : ∀ k, sorted.filter (fun entry => key entry = k) = original.filter (fun entry => key entry = k)

theorem stablySorts_nil : StablySorts key [] [] :=
  ⟨Pairwise.nil, fun _ => rfl⟩

variable {key} {sorted original : List α}

theorem lt_of_mem_dropWhile_le (ordered : sorted.Pairwise fun first second => key first ≤ key second)
    (bound : K) : ∀ entry ∈ sorted.dropWhile (fun entry => key entry ≤ bound), bound < key entry := by
  induction sorted with
  | nil => simp
  | cons first rest ih =>
    obtain ⟨firstLe, restOrdered⟩ := pairwise_cons.mp ordered
    intro entry member
    by_cases within : key first ≤ bound
    · rw [dropWhile_cons_of_pos (by simpa using within)] at member
      exact ih restOrdered entry member
    · -- the first element above the bound stops the run, and the rest lie above it
      rw [dropWhile_cons_of_neg (by simpa using within)] at member
      have above : bound < key first := lt_of_not_ge within
      rcases mem_cons.mp member with rfl | later
      · exact above
      · exact lt_of_lt_of_le above (firstLe entry later)

theorem takeWhile_le_eq_filter (ordered : sorted.Pairwise fun first second => key first ≤ key second)
    (bound : K) :
    sorted.takeWhile (fun entry => key entry ≤ bound) = sorted.filter (fun entry => key entry ≤ bound) := by
  conv_rhs => rw [← takeWhile_append_dropWhile (l := sorted) (p := fun entry => decide (key entry ≤ bound))]
  rw [filter_append, filter_eq_self.mpr fun entry member => by simpa using mem_takeWhile_imp member,
    filter_eq_nil_iff.mpr fun entry member => by
      simpa using lt_of_mem_dropWhile_le ordered bound entry member, append_nil]

theorem dropWhile_le_eq_filter (ordered : sorted.Pairwise fun first second => key first ≤ key second)
    (bound : K) :
    sorted.dropWhile (fun entry => key entry ≤ bound) = sorted.filter (fun entry => bound < key entry) := by
  conv_rhs => rw [← takeWhile_append_dropWhile (l := sorted) (p := fun entry => decide (key entry ≤ bound))]
  rw [filter_append, filter_eq_nil_iff.mpr fun entry member => by simpa using mem_takeWhile_imp member,
    filter_eq_self.mpr fun entry member => by simpa using lt_of_mem_dropWhile_le ordered bound entry member, nil_append]

namespace StablySorts

theorem perm (stably : StablySorts key sorted original) : sorted.Perm original := by
  classical
  refine perm_iff_count.mpr fun entry => ?_
  have countOf : ∀ list : List α, count entry (list.filter fun other => key other = key entry) = count entry list :=
    fun _ => count_filter (p := fun other => decide (key other = key entry)) (decide_eq_true rfl)
  rw [← countOf sorted, stably.stable (key entry), countOf]

theorem append (stably : StablySorts key sorted original) (entry : α)
    (above : ∀ earlier ∈ sorted, key earlier ≤ key entry) :
    StablySorts key (sorted ++ [entry]) (original ++ [entry]) := by
  refine ⟨pairwise_append.mpr ⟨stably.ordered, pairwise_singleton _ _, ?_⟩, fun k => ?_⟩
  · intro earlier member last lastMember
    rw [mem_singleton.mp lastMember]
    exact above earlier member
  · rw [filter_append, filter_append, stably.stable k]

theorem insert (stably : StablySorts key sorted original) (entry : α) :
    StablySorts key (sorted.takeWhile (fun other => key other ≤ key entry) ++
      entry :: sorted.dropWhile (fun other => key other ≤ key entry)) (original ++ [entry]) := by
  have whole := stably.ordered
  have above := lt_of_mem_dropWhile_le stably.ordered (key entry)
  rw [← takeWhile_append_dropWhile (l := sorted) (p := fun other => decide (key other ≤ key entry)),
    pairwise_append] at whole
  obtain ⟨lowSorted, highSorted, lowHigh⟩ := whole
  refine ⟨pairwise_append.mpr ⟨lowSorted, pairwise_cons.mpr ⟨fun other member => le_of_lt (above other member),
    highSorted⟩, fun low lowMember other otherMember => ?_⟩, fun k => ?_⟩
  · rcases mem_cons.mp otherMember with rfl | later
    · simpa using mem_takeWhile_imp lowMember
    · exact lowHigh low lowMember other later
  · have split := stably.stable k
    rw [← takeWhile_append_dropWhile (l := sorted) (p := fun other => decide (key other ≤ key entry)),
      filter_append] at split
    rw [filter_append, filter_cons, filter_append, ← split]
    by_cases ofKey : key entry = k
    · -- nothing past the run has the entry's key, so the entry is the last of its key
      have highFiltered : (sorted.dropWhile fun other => key other ≤ key entry).filter
          (fun other => key other = k) = [] :=
        filter_eq_nil_iff.mpr fun other member => by simpa [← ofKey] using (above other member).ne'
      rw [highFiltered]
      simp [ofKey]
    · simp [ofKey]

theorem filter (stably : StablySorts key sorted original) (holds : K → Bool) :
    StablySorts key (sorted.filter fun entry => holds (key entry)) (original.filter fun entry => holds (key entry)) := by
  refine ⟨stably.ordered.filter _, fun k => ?_⟩
  have swap : ∀ list : List α, (list.filter fun entry => holds (key entry)).filter (fun entry => key entry = k) =
      (list.filter fun entry => key entry = k).filter fun entry => holds (key entry) := by
    intro list
    rw [filter_filter, filter_filter]
    exact filter_congr fun entry _ => Bool.and_comm _ _
  rw [swap, swap, stably.stable k]

end StablySorts

section Greatest

variable {α : Type} {r : α → α → Prop} [DecidableRel r] {top : α}

theorem orderedInsert_eq_append_of_not_rel {sorted : List α} (above : ∀ a ∈ sorted, ¬ r top a) :
    sorted.orderedInsert r top = sorted ++ [top] := by
  induction sorted with
  | nil => rfl
  | cons first rest ih =>
    rw [orderedInsert_of_not_le r rest (above first mem_cons_self),
      ih fun a member => above a (mem_cons_of_mem first member)]
    rfl

theorem orderedInsert_append_singleton {a : α} (below : r a top) (sorted : List α) :
    (sorted ++ [top]).orderedInsert r a = sorted.orderedInsert r a ++ [top] := by
  induction sorted with
  | nil => simp [below]
  | cons first rest ih =>
    by_cases before : r a first
    · simp [before]
    · simp [before, ih]

theorem insertionSort_eq_erase_append [DecidableEq α] {l : List α} (greatest : ∀ a ∈ l, a ≠ top → r a top ∧ ¬ r top a)
    (once : top ∉ l.erase top) (member : top ∈ l) :
    l.insertionSort r = (l.erase top).insertionSort r ++ [top] := by
  induction l with
  | nil => cases member
  | cons first rest ih =>
    by_cases isTop : first = top
    · -- the top element is inserted last into the sorted rest, which it is ranked above
      subst isTop
      rw [erase_cons_head] at once ⊢
      rw [insertionSort_cons]
      refine orderedInsert_eq_append_of_not_rel fun a sortedMember => ?_
      have inRest := (mem_insertionSort r).mp sortedMember
      exact (greatest a (mem_cons_of_mem _ inRest) (ne_of_mem_of_not_mem inRest once)).2
    · -- the top element is in the rest, and `first` is inserted before it
      have erased : (first :: rest).erase top = first :: rest.erase top :=
        erase_cons_tail (by simpa using isTop)
      rw [erased] at once ⊢
      have inRest : top ∈ rest := (mem_cons.mp member).resolve_left (Ne.symm isTop)
      rw [insertionSort_cons, insertionSort_cons,
        ih (fun a inner => greatest a (mem_cons_of_mem _ inner)) (fun found => once (mem_cons_of_mem _ found)) inRest]
      exact orderedInsert_append_singleton (greatest first mem_cons_self isTop).1 _

end Greatest

end List

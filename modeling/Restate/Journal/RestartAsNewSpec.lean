import Mathlib.Data.Finset.Lattice.Lemmas
import Restate.Journal.RestartAsNew

/-! What restarting as new writes. The first loop copies the prefix and leaves missing exactly the
completions its commands relate to and its notifications do not complete, provided no command relates
a completion notified before it (`foldl_copyPrefixStep_missing`). The second loop then writes the
first notification of each missing completion that the rest of the journal has, in journal order
(`copyMissing_spec`, with `FirstOccurrences` saying what that is). For a journal that starts with the
input, notifies each completion after the one command relating it and no completion twice, and that
passed the RPC handler's check, every completion a command of the new journal relates is in it
exactly once; a journal holding a completion twice has it copied twice. -/

namespace Restate

namespace RestartAsNew

variable {α : Type}

/-- The completions the commands of some entries relate to. -/
def relatedIds (entries : List (JournalEntry α)) : Finset CompletionId :=
  (entries.flatMap JournalEntry.relatedCompletionIds).toFinset

/-- The completions the notifications of some entries complete. -/
def completedIds (entries : List (JournalEntry α)) : Finset CompletionId :=
  (entries.filterMap JournalEntry.completionId?).toFinset

theorem mem_relatedIds {entries : List (JournalEntry α)} {id : CompletionId} :
    id ∈ relatedIds entries ↔ ∃ entry ∈ entries, id ∈ entry.relatedCompletionIds := by
  simp [relatedIds]

theorem mem_completedIds {entries : List (JournalEntry α)} {id : CompletionId} :
    id ∈ completedIds entries ↔ ∃ entry ∈ entries, entry.completionId? = some id := by
  simp [completedIds]

@[simp] theorem relatedIds_nil : relatedIds ([] : List (JournalEntry α)) = ∅ := rfl

@[simp] theorem completedIds_nil : completedIds ([] : List (JournalEntry α)) = ∅ := rfl

theorem relatedIds_cons (entry : JournalEntry α) (rest : List (JournalEntry α)) :
    relatedIds (entry :: rest) = relatedIds [entry] ∪ relatedIds rest := by
  simp [relatedIds, List.toFinset_append]

theorem completedIds_cons (entry : JournalEntry α) (rest : List (JournalEntry α)) :
    completedIds (entry :: rest) = completedIds [entry] ∪ completedIds rest := by
  ext id
  simp only [mem_completedIds, Finset.mem_union, List.mem_cons]
  constructor
  · rintro ⟨other, rfl | later, completing⟩
    · exact Or.inl ⟨other, Or.inl rfl, completing⟩
    · exact Or.inr ⟨other, later, completing⟩
  · rintro (⟨other, rfl | absurd, completing⟩ | ⟨other, later, completing⟩)
    · exact ⟨other, Or.inl rfl, completing⟩
    · cases absurd
    · exact ⟨other, Or.inr later, completing⟩

theorem relatedCompletionIds_eq_nil {entry : JournalEntry α} {id : CompletionId}
    (completing : entry.completionId? = some id) : entry.relatedCompletionIds = [] := by
  cases entry with
  | command ids payload => simp at completing
  | notification notificationId payload => rfl

/-- `later` relates no completion that `earlier` completes. -/
def RelatesNoneCompleted (earlier later : JournalEntry α) : Prop :=
  ∀ id, earlier.completionId? = some id → id ∉ later.relatedCompletionIds

/-- Each completion notification of the journal comes after a command relating its completion. -/
def CompletionsAfterCommands (journal : List (JournalEntry α)) : Prop :=
  ∀ i (lt : i < journal.length), ∀ id ∈ journal[i].completionId?, id ∈ relatedIds (journal.take i)

instance : DecidablePred (CompletionsAfterCommands (α := α)) := fun _ =>
  @Nat.decidableBallLT _ _ fun _ _ => Option.decidableForallMem _

theorem foldl_insert (ids : List CompletionId) (missing : Finset CompletionId) :
    ids.foldl (fun missing id => insert id missing) missing = missing ∪ ids.toFinset := by
  induction ids generalizing missing with
  | nil => simp
  | cons id ids ih =>
    rw [List.foldl_cons, ih]
    ext other
    simp only [Finset.mem_union, Finset.mem_insert, List.toFinset_cons]
    tauto

@[simp] theorem copyPrefixStep_written (state : CopyState α) (entry : JournalEntry α) :
    (copyPrefixStep state entry).written = state.written ++ [entry] := by
  cases entry <;> rfl

@[simp] theorem copyPrefixStep_commands (state : CopyState α) (entry : JournalEntry α) :
    (copyPrefixStep state entry).commands = state.commands + if entry.isCommand then 1 else 0 := by
  cases entry <;> simp [copyPrefixStep, JournalEntry.isCommand]

theorem copyPrefixStep_missing (state : CopyState α) (entry : JournalEntry α) :
    (copyPrefixStep state entry).missingCompletions =
      (state.missingCompletions ∪ relatedIds [entry]) \ completedIds [entry] := by
  cases entry with
  | command ids payload =>
    simp [copyPrefixStep, foldl_insert, relatedIds, completedIds, JournalEntry.relatedCompletionIds,
      List.filterMap_cons]
  | notification id payload =>
    cases id <;> simp [copyPrefixStep, relatedIds, completedIds, JournalEntry.relatedCompletionIds,
      List.filterMap_cons, Finset.sdiff_singleton_eq_erase]

theorem foldl_copyPrefixStep_written (entries : List (JournalEntry α)) (state : CopyState α) :
    (entries.foldl copyPrefixStep state).written = state.written ++ entries := by
  induction entries generalizing state with
  | nil => simp
  | cons entry rest ih => rw [List.foldl_cons, ih, copyPrefixStep_written, List.append_assoc, List.singleton_append]

theorem foldl_copyPrefixStep_commands (entries : List (JournalEntry α)) (state : CopyState α) :
    (entries.foldl copyPrefixStep state).commands = state.commands + entries.countP JournalEntry.isCommand := by
  induction entries generalizing state with
  | nil => simp
  | cons entry rest ih =>
    rw [List.foldl_cons, ih, copyPrefixStep_commands, List.countP_cons]
    omega

theorem foldl_copyPrefixStep_missing {entries : List (JournalEntry α)}
    (late : entries.Pairwise RelatesNoneCompleted) (state : CopyState α) :
    (entries.foldl copyPrefixStep state).missingCompletions =
      (state.missingCompletions ∪ relatedIds entries) \ completedIds entries := by
  induction entries generalizing state with
  | nil => simp
  | cons entry rest ih =>
    obtain ⟨headLate, restLate⟩ := List.pairwise_cons.mp late
    rw [List.foldl_cons, ih restLate, copyPrefixStep_missing, relatedIds_cons entry rest, completedIds_cons entry rest]
    have unrelated : ∀ id ∈ completedIds [entry], id ∉ relatedIds rest := by
      intro id completed related
      obtain ⟨other, member, completing⟩ := mem_completedIds.mp completed
      obtain ⟨later, laterMember, relates⟩ := mem_relatedIds.mp related
      rw [List.mem_singleton] at member
      subst member
      exact headLate later laterMember id completing relates
    ext id
    have := unrelated id
    simp only [Finset.mem_sdiff, Finset.mem_union]
    tauto

theorem pairwise_relatesNoneCompleted {journal : List (JournalEntry α)} (after : CompletionsAfterCommands journal)
    (relatedNodup : (journal.flatMap JournalEntry.relatedCompletionIds).Nodup) :
    journal.Pairwise RelatesNoneCompleted := by
  suffices suffix : ∀ rest front, journal = front ++ rest → rest.Pairwise RelatesNoneCompleted from
    suffix journal [] rfl
  intro rest
  induction rest with
  | nil => exact fun _ _ => List.Pairwise.nil
  | cons entry back ih =>
    intro front split
    refine List.Pairwise.cons (fun later laterMember id completing relates => ?_)
      (ih (front ++ [entry]) (by rw [split, List.append_assoc, List.singleton_append]))
    -- the command before `entry` relating `id` and `later` would both relate it
    have bound : front.length < journal.length := by simp [split]
    have atEntry : journal[front.length] = entry := by simp [split]
    have before : id ∈ relatedIds front := by
      have relatedBefore := after front.length bound id (by rw [atEntry]; exact completing)
      rwa [split, List.take_left] at relatedBefore
    obtain ⟨command, commandMember, commandRelates⟩ := mem_relatedIds.mp before
    rw [split, List.flatMap_append, List.flatMap_cons, relatedCompletionIds_eq_nil completing,
      List.nil_append] at relatedNodup
    exact (List.nodup_append.mp relatedNodup).2.2 id (List.mem_flatMap.mpr ⟨command, commandMember, commandRelates⟩)
      id (List.mem_flatMap.mpr ⟨later, laterMember, relates⟩) rfl

/-- `written` is the first notification in `rest` of each completion of `missing` that `rest`
completes, in the order of `rest`, and nothing else. -/
structure FirstOccurrences (missing : Finset CompletionId) (rest written : List (JournalEntry α)) : Prop where
  sublist : written.Sublist rest
  completes : ∀ entry ∈ written, ∃ id ∈ missing, entry.completionId? = some id
  nodup : (written.filterMap JournalEntry.completionId?).Nodup
  covers : ∀ id ∈ missing, (∃ entry ∈ rest, entry.completionId? = some id) →
    id ∈ written.filterMap JournalEntry.completionId?
  first : ∀ entry ∈ written, ∀ id, entry.completionId? = some id →
    rest.find? (fun other => other.completionId? == some id) = some entry

namespace FirstOccurrences

theorem none_missing (rest : List (JournalEntry α)) : FirstOccurrences ∅ rest [] where
  sublist := List.nil_sublist _
  completes := by simp
  nodup := List.nodup_nil
  covers := by simp
  first := by simp

theorem nil (missing : Finset CompletionId) : FirstOccurrences missing ([] : List (JournalEntry α)) [] where
  sublist := List.Sublist.slnil
  completes := by simp
  nodup := List.nodup_nil
  covers := by simp
  first := by simp

theorem skip {missing : Finset CompletionId} {entry : JournalEntry α} {rest written : List (JournalEntry α)}
    (notMissing : ∀ id, entry.completionId? = some id → id ∉ missing) (later : FirstOccurrences missing rest written) :
    FirstOccurrences missing (entry :: rest) written where
  sublist := later.sublist.cons entry
  completes := later.completes
  nodup := later.nodup
  covers := by
    rintro id member ⟨other, inRest, completing⟩
    rcases List.mem_cons.mp inRest with rfl | laterEntry
    · exact absurd member (notMissing id completing)
    · exact later.covers id member ⟨other, laterEntry, completing⟩
  first := by
    intro written' isWritten id completing
    obtain ⟨missingId, inMissing, same⟩ := later.completes written' isWritten
    rw [completing, Option.some.injEq] at same
    subst same
    have headOther : ¬(entry.completionId? == some id) = true := by
      intro headCompletes
      exact notMissing id (by simpa using headCompletes) inMissing
    rw [List.find?_cons_of_neg (p := fun (other : JournalEntry α) => other.completionId? == some id) headOther]
    exact later.first written' isWritten id completing

theorem take {missing : Finset CompletionId} {entry : JournalEntry α} {rest written : List (JournalEntry α)}
    {id : CompletionId} (completing : entry.completionId? = some id) (inMissing : id ∈ missing)
    (later : FirstOccurrences (missing.erase id) rest written) :
    FirstOccurrences missing (entry :: rest) (entry :: written) where
  sublist := later.sublist.cons_cons entry
  completes := by
    intro written' member
    rcases List.mem_cons.mp member with rfl | laterEntry
    · exact ⟨id, inMissing, completing⟩
    · obtain ⟨other, otherMissing, otherCompleting⟩ := later.completes written' laterEntry
      exact ⟨other, Finset.mem_of_mem_erase otherMissing, otherCompleting⟩
  nodup := by
    rw [List.filterMap_cons, completing]
    refine List.nodup_cons.mpr ⟨fun again => ?_, later.nodup⟩
    obtain ⟨written', member, laterCompleting⟩ := List.mem_filterMap.mp again
    obtain ⟨other, otherMissing, otherCompleting⟩ := later.completes written' member
    rw [laterCompleting, Option.some.injEq] at otherCompleting
    rw [← otherCompleting] at otherMissing
    exact Finset.notMem_erase id missing otherMissing
  covers := by
    rintro other otherMissing ⟨source, inRest, sourceCompleting⟩
    rw [List.filterMap_cons, completing]
    by_cases same : other = id
    · exact same ▸ List.mem_cons_self
    · refine List.mem_cons_of_mem _ (later.covers other (Finset.mem_erase.mpr ⟨same, otherMissing⟩) ?_)
      rcases List.mem_cons.mp inRest with rfl | laterSource
      · rw [completing, Option.some.injEq] at sourceCompleting
        exact absurd sourceCompleting.symm same
      · exact ⟨source, laterSource, sourceCompleting⟩
  first := by
    intro written' member other otherCompleting
    rcases List.mem_cons.mp member with rfl | laterEntry
    · rw [completing, Option.some.injEq] at otherCompleting
      subst otherCompleting
      exact List.find?_cons_of_pos (by simp [completing])
    · obtain ⟨laterId, laterMissing, laterCompleting⟩ := later.completes written' laterEntry
      rw [otherCompleting, Option.some.injEq] at laterCompleting
      subst laterCompleting
      have headOther : ¬(entry.completionId? == some other) = true := by
        rw [completing]
        simpa using (Finset.ne_of_mem_erase laterMissing).symm
      rw [List.find?_cons_of_neg (p := fun (candidate : JournalEntry α) => candidate.completionId? == some other) headOther]
      exact later.first written' laterEntry other otherCompleting

end FirstOccurrences

theorem copyMissing_spec (rest : List (JournalEntry α)) (state : CopyState α) :
    (copyMissing rest state).commands = state.commands ∧
      ∃ written, (copyMissing rest state).written = state.written ++ written ∧
        FirstOccurrences state.missingCompletions rest written := by
  induction rest generalizing state with
  | nil => exact ⟨rfl, [], (List.append_nil _).symm, FirstOccurrences.nil _⟩
  | cons entry rest ih =>
    obtain ⟨next, writtenHere, stepped, sameCommands, wroteHere, extend⟩ : ∃ (next : CopyState α) (writtenHere : List (JournalEntry α)),
        copyMissing (entry :: rest) state = (if next.missingCompletions = ∅ then next else copyMissing rest next) ∧
        next.commands = state.commands ∧ next.written = state.written ++ writtenHere ∧
        ∀ written, FirstOccurrences next.missingCompletions rest written →
          FirstOccurrences state.missingCompletions (entry :: rest) (writtenHere ++ written) := by
      cases completing : entry.completionId? with
      | none =>
        exact ⟨state, [], by simp [copyMissing, completing], rfl, by simp,
          fun written later => FirstOccurrences.skip (by simp [completing]) later⟩
      | some id =>
        by_cases inMissing : id ∈ state.missingCompletions
        · exact ⟨{ state with written := state.written ++ [entry], missingCompletions := state.missingCompletions.erase id },
            [entry], by simp [copyMissing, completing, inMissing], rfl, rfl,
            fun written later => FirstOccurrences.take completing inMissing later⟩
        · exact ⟨state, [], by simp [copyMissing, completing, inMissing], rfl, by simp,
            fun written later => FirstOccurrences.skip (by simpa [completing] using inMissing) later⟩
    rw [stepped]
    by_cases empty : next.missingCompletions = ∅
    · -- nothing is missing any more, and the loop stops
      have done : FirstOccurrences next.missingCompletions rest [] := by
        rw [empty]
        exact FirstOccurrences.none_missing rest
      rw [if_pos empty]
      exact ⟨sameCommands, writtenHere, wroteHere, by simpa using extend [] done⟩
    · rw [if_neg empty]
      obtain ⟨commands, written, wrote, spec⟩ := ih next
      exact ⟨commands.trans sameCommands, writtenHere ++ written, by rw [wrote, wroteHere, List.append_assoc],
        extend written spec⟩

theorem completed_of_prefixCompletionsPresent {journal : List (JournalEntry α)} {upTo : Nat}
    (input : ∀ head ∈ journal.head?, head.relatedCompletionIds = [])
    (checked : prefixCompletionsPresent journal upTo = true) :
    ∀ entry ∈ journal.take (upTo + 1), ∀ id ∈ entry.relatedCompletionIds, id ∈ completedIds journal := by
  intro entry member id related
  obtain ⟨i, bound, atIndex⟩ := List.mem_iff_getElem.mp member
  rw [List.getElem_take] at atIndex
  rw [List.length_take] at bound
  have inJournal : i < journal.length := by omega
  rcases Nat.eq_zero_or_pos i with first | later
  · -- the check skips the first entry, which is the input
    subst first
    have head : entry ∈ journal.head? := by
      rw [List.head?_eq_getElem?, List.getElem?_eq_getElem inJournal, atIndex]
      rfl
    rw [input entry head] at related
    cases related
  · -- the check reads entry `i`
    have inRange : i ∈ List.range' 1 upTo := List.mem_range'_1.mpr ⟨later, by omega⟩
    have checkedAt := List.all_eq_true.mp checked i inRange
    rw [List.getElem?_eq_getElem inJournal, atIndex] at checkedAt
    simp only [List.all_eq_true, List.any_eq_true, beq_iff_eq] at checkedAt
    exact mem_completedIds.mpr (checkedAt id related)

theorem nodup_completions_append {copied rest written : List (JournalEntry α)} {missing : Finset CompletionId}
    (copiedNodup : (copied.filterMap JournalEntry.completionId?).Nodup)
    (notCopied : ∀ id ∈ missing, id ∉ completedIds copied) (first : FirstOccurrences missing rest written) :
    ((copied ++ written).filterMap JournalEntry.completionId?).Nodup := by
  rw [List.filterMap_append]
  refine List.nodup_append.mpr ⟨copiedNodup, first.nodup, ?_⟩
  rintro id inCopied other inWritten rfl
  obtain ⟨entry, member, completing⟩ := List.mem_filterMap.mp inWritten
  obtain ⟨missingId, isMissing, same⟩ := first.completes entry member
  rw [completing, Option.some.injEq] at same
  subst same
  exact notCopied id isMissing (List.mem_toFinset.mpr inCopied)

theorem mem_completions_append {copied rest written : List (JournalEntry α)}
    (first : FirstOccurrences (relatedIds copied \ completedIds copied) rest written) {id : CompletionId}
    (related : id ∈ relatedIds copied) (notified : id ∈ completedIds (copied ++ rest)) :
    id ∈ (copied ++ written).filterMap JournalEntry.completionId? := by
  rw [List.filterMap_append, List.mem_append]
  by_cases inCopied : id ∈ completedIds copied
  · exact Or.inl (List.mem_toFinset.mp inCopied)
  · obtain ⟨entry, member, completing⟩ := mem_completedIds.mp notified
    rcases List.mem_append.mp member with early | late
    · exact absurd (mem_completedIds.mpr ⟨entry, early, completing⟩) inCopied
    · exact Or.inr (first.covers id (Finset.mem_sdiff.mpr ⟨related, inCopied⟩) ⟨entry, late, completing⟩)

theorem restart_as_new_copies_a_self_contained_journal (journal : List (JournalEntry α))
    (randomSeed : Option UInt64) (upTo : Nat) (uniqueRandomSeeds : Bool) (newRandomSeed : UInt64)
    (input : ∀ head ∈ journal.head?, head.relatedCompletionIds = [])
    (after : CompletionsAfterCommands journal)
    (relatedNodup : (journal.flatMap JournalEntry.relatedCompletionIds).Nodup)
    (completedNodup : (journal.filterMap JournalEntry.completionId?).Nodup) :
    (journal.length ≤ upTo →
      restartAsNew (.completed journal randomSeed) upTo uniqueRandomSeeds newRandomSeed =
        (.journalIndexOutOfRange, none)) ∧
    (upTo < journal.length → prefixCompletionsPresent journal upTo = true →
      ∃ newJournal written,
        restartAsNew (.completed journal randomSeed) upTo uniqueRandomSeeds newRandomSeed = (.ok, some newJournal) ∧
        newJournal.entries = journal.take (upTo + 1) ++ written ∧
        FirstOccurrences (relatedIds (journal.take (upTo + 1)) \ completedIds (journal.take (upTo + 1)))
          (journal.drop (upTo + 1)) written ∧
        newJournal.length = newJournal.entries.length ∧
        newJournal.commands = (journal.take (upTo + 1)).countP JournalEntry.isCommand ∧
        (0 < upTo → newJournal.randomSeed = randomSeed) ∧
        ∀ entry ∈ newJournal.entries, ∀ id ∈ entry.relatedCompletionIds,
          (newJournal.entries.filterMap JournalEntry.completionId?).count id = 1) := by
  refine ⟨fun outOfRange => by simp [restartAsNew, outOfRange], fun inRange checked => ?_⟩
  -- the two loops: the prefix, then the first notifications of what it leaves missing
  obtain ⟨sameCommands, written, wrote, first⟩ :=
    copyMissing_spec (journal.drop (upTo + 1)) ((journal.take (upTo + 1)).foldl copyPrefixStep ⟨[], 0, ∅⟩)
  have late : (journal.take (upTo + 1)).Pairwise RelatesNoneCompleted :=
    (pairwise_relatesNoneCompleted after relatedNodup).sublist (List.take_sublist _ _)
  rw [foldl_copyPrefixStep_missing late, Finset.empty_union] at first
  rw [foldl_copyPrefixStep_written, List.nil_append] at wrote
  rw [foldl_copyPrefixStep_commands, Nat.zero_add] at sameCommands
  refine ⟨_, written, by rw [restartAsNew, if_neg (Nat.not_le.mpr inRange)], wrote, first, rfl, sameCommands,
    fun positive => if_pos positive, ?_⟩
  intro entry member id related
  rw [wrote] at member ⊢
  rcases List.mem_append.mp member with copied | copiedLater
  · -- a command of the prefix: its completion is notified exactly once
    have notified := completed_of_prefixCompletionsPresent input checked entry copied id related
    rw [← List.take_append_drop (upTo + 1) journal] at notified completedNodup
    rw [List.filterMap_append] at completedNodup
    refine List.count_eq_one_of_mem ?_ (mem_completions_append first (mem_relatedIds.mpr ⟨entry, copied, related⟩) notified)
    exact nodup_completions_append (List.nodup_append.mp completedNodup).1
      (fun other isMissing => (Finset.mem_sdiff.mp isMissing).2) first
  · -- what the second loop copies is a notification, which relates nothing
    obtain ⟨completion, -, completing⟩ := first.completes entry copiedLater
    rw [relatedCompletionIds_eq_nil completing] at related
    cases related

/-- Two sleeps whose completions come back out of order, the journal restarted after the second. -/
def twoSleeps : List (JournalEntry Unit) :=
  [.command [] (), .command [1] (), .command [2] (), .notification (.completionId 2) (),
    .notification (.completionId 1) ()]

theorem restart_two_sleeps_notifies_each_once :
    ∃ newJournal, restartAsNew (.completed twoSleeps none) 2 false 0 = (.ok, some newJournal) ∧
      ∀ entry ∈ newJournal.entries, ∀ id ∈ entry.relatedCompletionIds,
        (newJournal.entries.filterMap JournalEntry.completionId?).count id = 1 := by
  obtain ⟨newJournal, -, ran, -, -, -, -, -, once⟩ :=
    (restart_as_new_copies_a_self_contained_journal twoSleeps none 2 false 0 (by decide) (by decide)
      (by decide) (by decide)).2 (by decide) (by decide)
  exact ⟨newJournal, ran, once⟩

/-- A sleep whose completion the journal holds twice. -/
def twiceNotified : List (JournalEntry Unit) :=
  [.command [] (), .command [1] (), .notification (.completionId 1) (), .notification (.completionId 1) ()]

theorem restart_copies_a_completion_twice :
    CompletionsAfterCommands twiceNotified ∧ prefixCompletionsPresent twiceNotified 3 = true ∧
      restartAsNew (.completed twiceNotified none) 3 false 0 = (.ok, some ⟨twiceNotified, 4, 2, none⟩) ∧
      (twiceNotified.filterMap JournalEntry.completionId?).count 1 = 2 :=
  ⟨by decide, by decide, rfl, by decide⟩

end RestartAsNew

end Restate

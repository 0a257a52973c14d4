import Restate.Bifrost.Digests

/-! What the digests of a tail repair keep over every run of calls that does not panic: the offsets
under repair are exactly those from the start offset up to the target tail, and each one's nodes are
exactly the peers whose first Ok digest reported the record there. The start offset never moves
back, and `advance` moves it only past the last offset whose copies form a write quorum. -/

namespace Restate

/-- The entries of the first Ok digest a peer sent, among the calls so far. -/
def firstOkDigest (events : List DigestsEvent) (peer : PlainNodeId) : Option (List DigestEntry) :=
  events.findSome? fun
    | .digest sender _ status entries => if sender = peer ∧ status = .ok then some entries else none
    | _ => none

/-- Some entry of a digest reports the record at an offset as existing. -/
def ReportsExisting (entries : List DigestEntry) (offset : Nat) : Prop :=
  ∃ entry ∈ entries, entry.status = .exists ∧ entry.fromOffset ≤ offset ∧ offset ≤ entry.toOffset

/-- The first Ok digest of a peer reported the record at an offset as existing. -/
def ReportedExists (events : List DigestsEvent) (peer : PlainNodeId) (offset : Nat) : Prop :=
  ∃ entries, firstOkDigest events peer = some entries ∧ ReportsExisting entries offset

theorem reportsExisting_cons {entry : DigestEntry} {entries : List DigestEntry} {offset : Nat} :
    ReportsExisting (entry :: entries) offset ↔ ReportsExisting [entry] offset ∨ ReportsExisting entries offset := by
  simp [ReportsExisting]

theorem firstOkDigest_append (events : List DigestsEvent) (event : DigestsEvent) (peer : PlainNodeId) :
    firstOkDigest (events ++ [event]) peer = (firstOkDigest events peer).or (firstOkDigest [event] peer) := by
  simp only [firstOkDigest, List.findSome?_append]

theorem firstOkDigest_append_of_not_ok {events : List DigestsEvent} {event : DigestsEvent}
    (notOk : ∀ sender knownGlobalTail entries, event ≠ .digest sender knownGlobalTail .ok entries) (peer : PlainNodeId) :
    firstOkDigest (events ++ [event]) peer = firstOkDigest events peer := by
  rw [firstOkDigest_append]
  cases event with
  | digest sender knownGlobalTail status entries =>
    have notOkStatus : status ≠ .ok := fun ok => notOk sender knownGlobalTail entries (by rw [ok])
    simp [firstOkDigest, notOkStatus]
  | advance writeQuorum => simp [firstOkDigest]
  | replicate record replicated => simp [firstOkDigest]

theorem firstOkDigest_append_digest (events : List DigestsEvent) (sender : PlainNodeId) (knownGlobalTail : Nat)
    (status : Status) (entries : List DigestEntry) (peer : PlainNodeId) :
    firstOkDigest (events ++ [.digest sender knownGlobalTail status entries]) peer =
      if sender = peer ∧ status = .ok then (firstOkDigest events peer).or (some entries) else firstOkDigest events peer := by
  rw [firstOkDigest_append]
  by_cases fromPeer : sender = peer ∧ status = .ok
  · simp [firstOkDigest, fromPeer]
  · simp only [firstOkDigest, List.findSome?_cons, List.findSome?_nil, fromPeer, if_false, Option.or_none]

namespace Digests

/-- The offsets under repair. -/
def keys (digests : Digests) : List Nat := digests.offsetsUnderRepair.entries.map Prod.fst

theorem filter_range' (start length newStart : Nat) (after : start ≤ newStart) :
    (List.range' start length).filter (fun offset => newStart ≤ offset) = List.range' newStart (start + length - newStart) := by
  by_cases inside : newStart ≤ start + length
  · -- split the range at the new start: everything before it is dropped, the rest is kept
    have split := @List.range'_append_1 start (newStart - start) (start + length - newStart)
    rw [Nat.add_sub_cancel' after, show newStart - start + (start + length - newStart) = length by omega] at split
    rw [← split, List.filter_append, List.filter_eq_nil_iff.mpr, List.filter_eq_self.mpr, List.nil_append]
    · intro offset member
      simp only [List.mem_range'_1] at member
      simpa using member.1
    · intro offset member
      simp only [List.mem_range'_1] at member
      simp only [decide_eq_true_eq]
      omega
  · rw [show start + length - newStart = 0 by omega, List.range'_zero, List.filter_eq_nil_iff]
    intro offset member
    simp only [List.mem_range'_1] at member
    simp only [decide_eq_true_eq]
    omega

theorem keys_new (startOffset targetTail : Nat) :
    (new startOffset targetTail).keys = List.range' startOffset (targetTail - startOffset) := by
  unfold keys new
  split
  · rw [show targetTail - startOffset = 0 by omega]
    rfl
  · simp [repairRange, Function.comp_def]

@[simp] theorem updateStartOffset_targetTail (digests : Digests) (newStartOffset : Nat) :
    (digests.updateStartOffset newStartOffset).targetTail = digests.targetTail := by
  unfold updateStartOffset truncateRange
  dsimp only
  split
  · split <;> rfl
  · rfl

@[simp] theorem updateStartOffset_startOffset (digests : Digests) (newStartOffset : Nat) :
    (digests.updateStartOffset newStartOffset).startOffset = max digests.startOffset newStartOffset := by
  unfold updateStartOffset truncateRange
  dsimp only
  split
  · split <;> rfl
  · rfl

@[simp] theorem updateStartOffset_knownNodes (digests : Digests) (newStartOffset : Nat) :
    (digests.updateStartOffset newStartOffset).knownNodes = digests.knownNodes := by
  unfold updateStartOffset truncateRange
  dsimp only
  split
  · split <;> rfl
  · rfl

theorem startOffset_le_updateStartOffset (digests : Digests) (newStartOffset : Nat) :
    digests.startOffset ≤ (digests.updateStartOffset newStartOffset).startOffset := by
  rw [updateStartOffset_startOffset]
  exact le_max_left _ _

theorem updateStartOffset_frame (digests : Digests) (newStartOffset : Nat) :
    (digests.updateStartOffset newStartOffset).targetTail = digests.targetTail ∧
      digests.startOffset ≤ (digests.updateStartOffset newStartOffset).startOffset :=
  ⟨updateStartOffset_targetTail digests newStartOffset, startOffset_le_updateStartOffset digests newStartOffset⟩

theorem updateStartOffset_sublist (digests : Digests) (newStartOffset : Nat) :
    (digests.updateStartOffset newStartOffset).offsetsUnderRepair.entries.Sublist digests.offsetsUnderRepair.entries := by
  unfold updateStartOffset truncateRange
  dsimp only
  split
  · split
    · exact List.nil_sublist _
    · exact List.filter_sublist
  · exact List.Sublist.refl _

theorem keys_updateStartOffset {digests : Digests}
    (keysEq : digests.keys = List.range' digests.startOffset (digests.targetTail - digests.startOffset))
    (newStartOffset : Nat) :
    (digests.updateStartOffset newStartOffset).keys =
      List.range' (max digests.startOffset newStartOffset) (digests.targetTail - max digests.startOffset newStartOffset) := by
  unfold updateStartOffset
  dsimp only
  split
  · unfold truncateRange
    split
    · next finished =>
      simp only at finished
      rw [show digests.targetTail - max digests.startOffset newStartOffset = 0 by omega]
      rfl
    · next unfinished =>
      simp only at unfinished
      have kept := filter_range' digests.startOffset (digests.targetTail - digests.startOffset)
        (max digests.startOffset newStartOffset) (le_max_left _ _)
      rw [← keysEq, keys, List.filter_map] at kept
      rw [show digests.startOffset + (digests.targetTail - digests.startOffset) - max digests.startOffset newStartOffset =
        digests.targetTail - max digests.startOffset newStartOffset by omega] at kept
      simpa [keys, OrdMap.splitOff, Function.comp_def] using kept
  · next same =>
    simp only [ne_eq, Decidable.not_not] at same
    simpa [keys, same] using keysEq

theorem entries_eq_nil_iff {digests : Digests}
    (keysEq : digests.keys = List.range' digests.startOffset (digests.targetTail - digests.startOffset)) :
    digests.offsetsUnderRepair.entries = [] ↔ digests.isFinished = true := by
  rw [← List.map_eq_nil_iff (f := Prod.fst), ← keys, keysEq, List.range'_eq_nil_iff, isFinished, decide_eq_true_iff]
  omega

theorem recordCopies_spec {peer : PlainNodeId} {offsets result : OrdMap Nat NodeSet} {entry : DigestEntry}
    (recorded : recordCopies peer offsets entry = some result) :
    result.entries.map Prod.fst = offsets.entries.map Prod.fst ∧
      ∀ item ∈ result.entries, ∃ copies, (item.1, copies) ∈ offsets.entries ∧
        ∀ node, node ∈ item.2.nodes ↔ node ∈ copies.nodes ∨ (node = peer ∧ ReportsExisting [entry] item.1) := by
  unfold recordCopies at recorded
  by_cases existing : entry.status = .exists
  · rw [if_pos existing] at recorded
    split at recorded
    · cases recorded
    · cases recorded
      refine ⟨OrdMap.keys_modifyRange _ _ _ _, fun item member => ?_⟩
      obtain ⟨copies, found, itemEq⟩ := OrdMap.mem_modifyRange.mp member
      refine ⟨copies, found, fun node => ?_⟩
      rw [itemEq]
      by_cases covered : entry.fromOffset ≤ item.1 ∧ item.1 ≤ entry.toOffset
      · simp [covered, ReportsExisting, existing]
      · simp only [covered, if_false, ReportsExisting, List.mem_singleton, exists_eq_left, existing, true_and]
        tauto
  · rw [if_neg existing] at recorded
    cases recorded
    refine ⟨rfl, fun item member => ⟨item.2, member, fun node => ?_⟩⟩
    simp [ReportsExisting, existing]

theorem foldlM_recordCopies (peer : PlainNodeId) :
    ∀ (entries : List DigestEntry) {offsets result : OrdMap Nat NodeSet},
      entries.foldlM (recordCopies peer) offsets = some result →
      result.entries.map Prod.fst = offsets.entries.map Prod.fst ∧
        ∀ item ∈ result.entries, ∃ copies, (item.1, copies) ∈ offsets.entries ∧
          ∀ node, node ∈ item.2.nodes ↔ node ∈ copies.nodes ∨ (node = peer ∧ ReportsExisting entries item.1)
  | [], offsets, result, recorded => by
    cases recorded
    exact ⟨rfl, fun item member => ⟨item.2, member, fun node => by simp [ReportsExisting]⟩⟩
  | entry :: entries, offsets, result, recorded => by
    rw [List.foldlM_cons] at recorded
    obtain ⟨middle, first, rest⟩ := Option.bind_eq_some_iff.mp recorded
    obtain ⟨firstKeys, firstCopies⟩ := recordCopies_spec first
    obtain ⟨restKeys, restCopies⟩ := foldlM_recordCopies peer entries rest
    refine ⟨restKeys.trans firstKeys, fun item member => ?_⟩
    obtain ⟨middleCopies, middleFound, middleNodes⟩ := restCopies item member
    obtain ⟨copies, found, nodes⟩ := firstCopies (item.1, middleCopies) middleFound
    refine ⟨copies, found, fun node => ?_⟩
    rw [middleNodes, nodes, @reportsExisting_cons entry entries item.1]
    tauto

/-- What every state of a run keeps, given the calls so far: the offsets under repair are those from
the start offset up to the target tail; the known nodes are the peers that sent an Ok digest; and
each offset's nodes are the peers whose first Ok digest reported the record there. -/
structure Invariant (events : List DigestsEvent) (digests : Digests) : Prop where
  keys : digests.keys = List.range' digests.startOffset (digests.targetTail - digests.startOffset)
  known : ∀ peer, peer ∈ digests.knownNodes.nodes ↔ (firstOkDigest events peer).isSome
  copies : ∀ entry ∈ digests.offsetsUnderRepair.entries, ∀ peer, peer ∈ entry.2.nodes ↔ ReportedExists events peer entry.1

theorem invariant_new (startOffset targetTail : Nat) : Invariant [] (new startOffset targetTail) := by
  refine ⟨keys_new startOffset targetTail, fun peer => ?_, fun entry member peer => ?_⟩
  · simp [new, NodeSet.empty, firstOkDigest]
  · -- nothing is known to be held anywhere before any digest
    have noCopies : entry.2 = NodeSet.empty := by
      unfold new at member
      split at member
      · cases member
      · obtain ⟨offset, -, rfl⟩ := List.mem_map.mp member
        rfl
    simp [noCopies, NodeSet.empty, ReportedExists, firstOkDigest]

namespace Invariant

variable {events : List DigestsEvent} {digests : Digests}

theorem updateStartOffset (invariant : Invariant events digests) (newStartOffset : Nat) :
    Invariant events (digests.updateStartOffset newStartOffset) := by
  refine ⟨?_, fun peer => ?_, fun entry member => invariant.copies entry ((updateStartOffset_sublist _ _).subset member)⟩
  · rw [keys_updateStartOffset invariant.keys, updateStartOffset_startOffset, updateStartOffset_targetTail]
  · rw [updateStartOffset_knownNodes]
    exact invariant.known peer

theorem append_of_not_ok (invariant : Invariant events digests) {event : DigestsEvent}
    (notOk : ∀ sender knownGlobalTail entries, event ≠ .digest sender knownGlobalTail .ok entries) :
    Invariant (events ++ [event]) digests := by
  refine ⟨invariant.keys, fun peer => ?_, fun entry member peer => ?_⟩
  · rw [firstOkDigest_append_of_not_ok notOk]
    exact invariant.known peer
  · rw [ReportedExists, firstOkDigest_append_of_not_ok notOk]
    exact invariant.copies entry member peer

theorem withNumFixups (invariant : Invariant events digests) (numFixups : Nat) :
    Invariant events { digests with numFixups } :=
  ⟨invariant.keys, invariant.known, invariant.copies⟩

theorem append_known_digest (invariant : Invariant events digests) {peer : PlainNodeId} (known : peer ∈ digests.knownNodes.nodes)
    (knownGlobalTail : Nat) (status : Status) (entries : List DigestEntry) :
    Invariant (events ++ [.digest peer knownGlobalTail status entries]) digests := by
  have unchanged : ∀ other, firstOkDigest (events ++ [.digest peer knownGlobalTail status entries]) other =
      firstOkDigest events other := by
    intro other
    rw [firstOkDigest_append_digest]
    split
    · next fromPeer =>
      rw [← fromPeer.1]
      obtain ⟨first, firstEq⟩ := Option.isSome_iff_exists.mp ((invariant.known peer).mp known)
      rw [firstEq]
      rfl
    · rfl
  refine ⟨invariant.keys, fun other => ?_, fun entry member other => ?_⟩
  · rw [unchanged]
    exact invariant.known other
  · rw [ReportedExists, unchanged]
    exact invariant.copies entry member other

theorem append_first_digest (invariant : Invariant events digests) {peer : PlainNodeId}
    (unknown : peer ∉ digests.knownNodes.nodes) (knownGlobalTail : Nat) (entries : List DigestEntry)
    {offsetsUnderRepair : OrdMap Nat NodeSet}
    (keysEq : offsetsUnderRepair.entries.map Prod.fst = digests.offsetsUnderRepair.entries.map Prod.fst)
    (recorded : ∀ item ∈ offsetsUnderRepair.entries, ∃ copies, (item.1, copies) ∈ digests.offsetsUnderRepair.entries ∧
      ∀ node, node ∈ item.2.nodes ↔ node ∈ copies.nodes ∨ (node = peer ∧ ReportsExisting entries item.1)) :
    Invariant (events ++ [.digest peer knownGlobalTail .ok entries])
      { digests with knownNodes := (digests.knownNodes.insert peer).1, offsetsUnderRepair } := by
  have first : firstOkDigest events peer = none := by
    cases firstEq : firstOkDigest events peer with
    | none => rfl
    | some _ => exact absurd ((invariant.known peer).mpr (by simp [firstEq])) unknown
  have history : ∀ other, firstOkDigest (events ++ [.digest peer knownGlobalTail .ok entries]) other =
      if other = peer then some entries else firstOkDigest events other := by
    intro other
    rw [firstOkDigest_append_digest]
    by_cases same : other = peer
    · subst same
      simp [first]
    · simp [same, Ne.symm same]
  refine ⟨?_, fun other => ?_, fun item member other => ?_⟩
  · show offsetsUnderRepair.entries.map Prod.fst = _
    rw [keysEq]
    exact invariant.keys
  · rw [NodeSet.mem_insert, history, invariant.known]
    by_cases same : other = peer <;> simp [same]
  · obtain ⟨copies, found, nodes⟩ := recorded item member
    rw [nodes, invariant.copies _ found, ReportedExists, ReportedExists, history]
    by_cases same : other = peer
    · subst same
      simp [first]
    · simp [same]

theorem onDigestMessage (invariant : Invariant events digests) {peer : PlainNodeId} {knownGlobalTail : Nat}
    {status : Status} {entries : List DigestEntry} {next : Digests}
    (stepped : digests.onDigestMessage peer knownGlobalTail status entries = some next) :
    Invariant (events ++ [.digest peer knownGlobalTail status entries]) next := by
  have moved := invariant.updateStartOffset knownGlobalTail
  unfold Digests.onDigestMessage at stepped
  dsimp only at stepped
  generalize digests.updateStartOffset knownGlobalTail = digests at moved stepped
  split at stepped
  · next notOk =>
    cases stepped
    exact moved.append_of_not_ok fun _ _ _ same => notOk (DigestsEvent.digest.inj same).2.2.1
  · next ok =>
    rw [ne_eq, Decidable.not_not] at ok
    subst ok
    split at stepped
    · -- a known peer: the digest is ignored
      next notInserted =>
      have known : peer ∈ digests.knownNodes.nodes := by
        by_contra unknown
        simp [NodeSet.insert_snd.mpr unknown] at notInserted
      cases stepped
      rw [NodeSet.insert_of_mem known]
      exact moved.append_known_digest known knownGlobalTail .ok entries
    · next inserted =>
      have unknown : peer ∉ digests.knownNodes.nodes := NodeSet.insert_snd.mp (by simpa using inserted)
      split at stepped
      · -- a finished repair has no offsets to add the peer to
        next finished =>
        cases stepped
        have empty := (entries_eq_nil_iff moved.keys).mpr finished
        exact moved.append_first_digest unknown knownGlobalTail entries rfl
          (fun item member => absurd member (by rw [empty]; exact List.not_mem_nil))
      · obtain ⟨offsetsUnderRepair, folded, rfl⟩ := Option.map_eq_some_iff.mp stepped
        obtain ⟨keysEq, recorded⟩ := foldlM_recordCopies peer entries folded
        exact moved.append_first_digest unknown knownGlobalTail entries keysEq recorded

end Invariant

theorem advance_cases {writeQuorum : List PlainNodeId → Bool} {digests : Digests} {result : Digests × Bool}
    (advanced : digests.advance writeQuorum = some result) :
    result.1 = digests ∨ ∃ found, digests.offsetsUnderRepair.rfind (fun entry => writeQuorum entry.2.nodes) = some found ∧
      result.1 = digests.updateStartOffset (LogletOffset.next found.1) := by
  unfold advance at advanced
  split at advanced
  · cases advanced
    exact Or.inl rfl
  · split at advanced
    · next offset copies located =>
      cases advanced
      exact Or.inr ⟨(offset, copies), located, rfl⟩
    · split at advanced
      · cases advanced
        exact Or.inl rfl
      · split at advanced
        · cases advanced
          exact Or.inl rfl
        · cases advanced

theorem replicateRecordAndAdvance_cases {digests next : Digests} {record : RepairRecord} {replicated : Bool}
    (stepped : digests.replicateRecordAndAdvance record replicated = some next) :
    next = digests ∨ ∃ numFixups newStartOffset, next = ({ digests with numFixups } : Digests).updateStartOffset newStartOffset := by
  unfold replicateRecordAndAdvance at stepped
  split at stepped
  · split at stepped
    · cases stepped
      exact Or.inl rfl
    · cases stepped
      exact Or.inr ⟨digests.numFixups, _, rfl⟩
  · split at stepped
    · cases stepped
      exact Or.inl rfl
    · split at stepped
      · cases stepped
      · split at stepped
        · cases stepped
          exact Or.inr ⟨_, _, rfl⟩
        · cases stepped
          exact Or.inl rfl

theorem step_frame {digests next : Digests} {event : DigestsEvent} (stepped : digests.step event = some next) :
    next.targetTail = digests.targetTail ∧ digests.startOffset ≤ next.startOffset := by
  cases event with
  | digest peer knownGlobalTail status entries =>
    have moved := updateStartOffset_frame digests knownGlobalTail
    unfold step onDigestMessage at stepped
    dsimp only at stepped
    generalize digests.updateStartOffset knownGlobalTail = moved at moved stepped
    split at stepped
    · cases stepped
      exact moved
    · split at stepped
      · cases stepped
        exact moved
      · split at stepped
        · cases stepped
          exact moved
        · obtain ⟨_, -, rfl⟩ := Option.map_eq_some_iff.mp stepped
          exact moved
  | advance writeQuorum =>
    obtain ⟨result, advanced, rfl⟩ := Option.map_eq_some_iff.mp stepped
    rcases advance_cases advanced with same | ⟨found, -, moved⟩
    · rw [same]
      exact ⟨rfl, le_rfl⟩
    · rw [moved]
      exact updateStartOffset_frame digests _
  | replicate record replicated =>
    rcases replicateRecordAndAdvance_cases stepped with same | ⟨numFixups, newStartOffset, moved⟩
    · rw [same]
      exact ⟨rfl, le_rfl⟩
    · rw [moved]
      exact updateStartOffset_frame { digests with numFixups } newStartOffset

theorem Invariant.step {events : List DigestsEvent} {digests next : Digests} (invariant : Invariant events digests)
    {event : DigestsEvent} (stepped : digests.step event = some next) : Invariant (events ++ [event]) next := by
  cases event with
  | digest peer knownGlobalTail status entries => exact invariant.onDigestMessage stepped
  | advance writeQuorum =>
    have kept : Invariant (events ++ [.advance writeQuorum]) digests := invariant.append_of_not_ok fun _ _ _ => by simp
    obtain ⟨result, advanced, rfl⟩ := Option.map_eq_some_iff.mp stepped
    rcases advance_cases advanced with same | ⟨found, -, moved⟩
    · rw [same]
      exact kept
    · rw [moved]
      exact kept.updateStartOffset _
  | replicate record replicated =>
    have kept : Invariant (events ++ [.replicate record replicated]) digests :=
      invariant.append_of_not_ok fun _ _ _ => by simp
    rcases replicateRecordAndAdvance_cases stepped with same | ⟨numFixups, newStartOffset, moved⟩
    · rw [same]
      exact kept
    · rw [moved]
      exact (kept.withNumFixups numFixups).updateStartOffset newStartOffset

theorem invariant_run {startOffset targetTail : Nat} {events : List DigestsEvent} {final : Digests}
    (reached : (new startOffset targetTail).run events = some final) :
    Invariant events final ∧ final.targetTail = targetTail ∧ startOffset ≤ final.startOffset :=
  List.foldlM_option_history
    (fun events digests => Invariant events digests ∧ digests.targetTail = targetTail ∧ startOffset ≤ digests.startOffset)
    ⟨invariant_new startOffset targetTail, rfl, le_rfl⟩
    (fun _ _ _ _ holds stepped =>
      have frame := step_frame stepped
      ⟨holds.1.step stepped, frame.1.trans holds.2.1, holds.2.2.trans frame.2⟩)
    events reached

theorem Invariant.advance_isSome {events : List DigestsEvent} {digests : Digests} (invariant : Invariant events digests)
    (writeQuorum : List PlainNodeId → Bool) : (digests.advance writeQuorum).isSome := by
  unfold advance
  split
  · rfl
  · split
    · rfl
    · split
      · rfl
      · next unfinished =>
        have nonempty : digests.offsetsUnderRepair.entries ≠ [] :=
          fun empty => unfinished ((entries_eq_nil_iff invariant.keys).mp empty)
        obtain ⟨first, rest, firstEq⟩ := List.exists_cons_of_ne_nil nonempty
        simp [OrdMap.firstKeyValue?, firstEq]

theorem Invariant.advance_past_quorum {events : List DigestsEvent} {digests : Digests}
    (invariant : Invariant events digests) (bounded : digests.targetTail ≤ LogletOffset.maxValue)
    {writeQuorum : List PlainNodeId → Bool} {result : Digests × Bool} (advanced : digests.advance writeQuorum = some result) :
    result.1 = digests ∨ ∃ offset copies, (offset, copies) ∈ digests.offsetsUnderRepair.entries ∧
      writeQuorum copies.nodes = true ∧
      (∀ entry ∈ digests.offsetsUnderRepair.entries, writeQuorum entry.2.nodes = true → entry.1 ≤ offset) ∧
      result.1.startOffset = offset + 1 := by
  rcases advance_cases advanced with same | ⟨⟨offset, copies⟩, located, moved⟩
  · exact Or.inl same
  · obtain ⟨member, quorum⟩ := OrdMap.rfind_some located
    have underRepair : offset ∈ digests.keys := List.mem_map_of_mem (f := Prod.fst) member
    rw [invariant.keys, List.mem_range'_1] at underRepair
    refine Or.inr ⟨offset, copies, member, quorum, OrdMap.le_of_rfind_some located, ?_⟩
    rw [moved, updateStartOffset_startOffset, LogletOffset.next]
    omega

end Digests

theorem digests_track_the_repair (startOffset targetTail : Nat) (bounded : targetTail ≤ LogletOffset.maxValue)
    (events : List DigestsEvent) (final : Digests) (reached : (Digests.new startOffset targetTail).run events = some final) :
    final.targetTail = targetTail ∧ startOffset ≤ final.startOffset ∧
      final.keys = List.range' final.startOffset (targetTail - final.startOffset) ∧
      (final.offsetsUnderRepair.entries = [] ↔ final.isFinished = true) ∧
      (∀ entry ∈ final.offsetsUnderRepair.entries, ∀ peer, peer ∈ entry.2.nodes ↔ ReportedExists events peer entry.1) ∧
      (∀ event next, final.step event = some next → final.startOffset ≤ next.startOffset) ∧
      ∀ writeQuorum, ∃ result, final.advance writeQuorum = some result ∧
        (result.1 = final ∨ ∃ offset copies, (offset, copies) ∈ final.offsetsUnderRepair.entries ∧
          writeQuorum copies.nodes = true ∧
          (∀ entry ∈ final.offsetsUnderRepair.entries, writeQuorum entry.2.nodes = true → entry.1 ≤ offset) ∧
          result.1.startOffset = offset + 1) := by
  obtain ⟨invariant, targetEq, started⟩ := Digests.invariant_run reached
  have keys := invariant.keys
  rw [targetEq] at keys
  refine ⟨targetEq, started, keys, Digests.entries_eq_nil_iff invariant.keys, invariant.copies,
    fun event next stepped => (Digests.step_frame stepped).2, fun writeQuorum => ?_⟩
  obtain ⟨result, advanced⟩ := Option.isSome_iff_exists.mp (invariant.advance_isSome writeQuorum)
  exact ⟨result, advanced, invariant.advance_past_quorum (targetEq ▸ bounded) advanced⟩

theorem oneDigest_repair_tracked :
    ∃ final, (Digests.new 1 3).run [.digest ⟨7⟩ 0 .ok [⟨1, 2, .exists⟩], .advance fun nodes => decide (1 ≤ nodes.length)] =
        some final ∧ final.targetTail = 3 ∧ final.isFinished = true :=
  have isSome : ((Digests.new 1 3).run
      [.digest ⟨7⟩ 0 .ok [⟨1, 2, .exists⟩], .advance fun nodes => decide (1 ≤ nodes.length)]).isSome := rfl
  have tracked := digests_track_the_repair 1 3 (by decide) _ _ (Option.some_get isSome).symm
  ⟨_, (Option.some_get isSome).symm, tracked.1, rfl⟩

end Restate

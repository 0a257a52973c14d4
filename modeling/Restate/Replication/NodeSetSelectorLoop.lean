import Mathlib
import Restate.Replication.NodeSetSelector

/-! The loop of `choose_domains`, one turn at a time. A turn that goes on either sets aside a domain
with no writeable candidate left or moves the last candidate it keeps into the nodeset; so the
nodeset and the candidates left stay distinct candidates, and in the first phase, which keeps
every candidate, they stay all of them. The heap and its candidates shrink at every turn, so the
loop stops within its fuel. -/

namespace Restate

theorem NodeSet.insert_of_not_mem {set : NodeSet} {node : PlainNodeId} (fresh : node ∉ set.nodes) :
    (set.insert node).1.nodes = set.nodes ++ [node] := by
  simp [NodeSet.insert, fresh]

theorem NodeSet.length_insert_le (set : NodeSet) (node : PlainNodeId) :
    (set.insert node).1.nodes.length ≤ set.nodes.length + 1 := by
  by_cases member : node ∈ set.nodes
  · rw [NodeSet.insert_of_mem member]
    exact Nat.le_succ _
  · rw [NodeSet.insert_of_not_mem member, List.length_append, List.length_singleton]

theorem NodeSet.subset_insert (set : NodeSet) (node : PlainNodeId) :
    set.nodes ⊆ (set.insert node).1.nodes :=
  fun _ member => NodeSet.mem_insert.mpr (.inl member)

namespace Domain

@[simp] theorem pick_candidates (domain : Domain) (node : CandidateNode) :
    (domain.pick node).candidates = domain.candidates.dropLast := rfl

@[simp] theorem retain_false (domain : Domain) : domain.retain false = domain := rfl

theorem retain_sublist (writeableOnly : Bool) (domain : Domain) :
    (domain.retain writeableOnly).candidates.Sublist domain.candidates := by
  cases writeableOnly
  · exact List.Sublist.refl _
  · exact List.filter_sublist

end Domain

namespace NodeSetSelector

/-- The node ids of the candidates left in some domains. -/
def remainingIds (domains : List Domain) : List PlainNodeId :=
  domains.flatMap fun domain => domain.candidates.map (·.nodeId)

@[simp] theorem remainingIds_nil : remainingIds [] = [] := rfl

@[simp] theorem remainingIds_cons (domain : Domain) (domains : List Domain) :
    remainingIds (domain :: domains) = domain.candidates.map (·.nodeId) ++ remainingIds domains := rfl

@[simp] theorem remainingIds_append (domains others : List Domain) :
    remainingIds (domains ++ others) = remainingIds domains ++ remainingIds others :=
  List.flatMap_append

theorem remainingIds_perm {domains others : List Domain} (perm : domains.Perm others) :
    (remainingIds domains).Perm (remainingIds others) :=
  perm.flatMap_right _

theorem remainingIds_eq_nil {domains : List Domain} (exhausted : ∀ domain ∈ domains, domain.candidates = []) :
    remainingIds domains = [] := by
  simpa [remainingIds] using exhausted

theorem mem_remainingIds {domains : List Domain} {domain : Domain} {node : CandidateNode}
    (inQueue : domain ∈ domains) (member : node ∈ domain.candidates) : node.nodeId ∈ remainingIds domains :=
  List.mem_flatMap.mpr ⟨domain, inQueue, List.mem_map_of_mem member⟩

@[simp] theorem candidateCount_cons (domain : Domain) (domains : List Domain) :
    candidateCount (domain :: domains) = domain.candidates.length + candidateCount domains := by
  simp [candidateCount]

theorem candidateCount_perm {domains others : List Domain} (perm : domains.Perm others) :
    candidateCount domains = candidateCount others :=
  (perm.map _).sum_eq

/-- A bound on the turns a loop can still take: one for each domain on the heap and one for each
candidate on it. -/
def ChooseState.measure (state : ChooseState) : Nat := state.queue.length + candidateCount state.queue

namespace ChooseState

variable (state : ChooseState) (rest : List Domain) (domain : Domain) (node : CandidateNode)

@[simp] theorem pickNode_output : (state.pickNode rest domain node).output = (state.output.insert node.nodeId).1 := by
  unfold pickNode
  dsimp only
  split <;> rfl

@[simp] theorem pickNode_pickedSoFar : (state.pickNode rest domain node).pickedSoFar = state.pickedSoFar + 1 := by
  unfold pickNode
  dsimp only
  split <;> rfl

theorem pickNode_domains :
    (state.pickNode rest domain node).queue ++ (state.pickNode rest domain node).done =
      rest ++ domain.pick node :: state.done := by
  unfold pickNode
  dsimp only
  split <;> simp

theorem mem_pickNode_queue {other : Domain} (member : other ∈ (state.pickNode rest domain node).queue) :
    other ∈ rest ∨ (other = domain.pick node ∧ (domain.pick node).candidates ≠ []) := by
  unfold pickNode at member
  dsimp only at member
  split at member
  · exact .inl member
  · next nonEmpty =>
    rcases List.mem_append.mp member with inRest | picked
    · exact .inl inRest
    · exact .inr ⟨List.mem_singleton.mp picked, nonEmpty⟩

theorem mem_pickNode_done {other : Domain} (member : other ∈ (state.pickNode rest domain node).done) :
    other ∈ state.done ∨ (other = domain.pick node ∧ (domain.pick node).candidates = []) := by
  unfold pickNode at member
  dsimp only at member
  split at member
  · next exhausted =>
    rcases List.mem_cons.mp member with picked | inDone
    · exact .inr ⟨picked, exhausted⟩
    · exact .inl inDone
  · exact .inl member

theorem pickNode_measure :
    (state.pickNode rest domain node).measure < rest.length + 1 + candidateCount rest + domain.candidates.length := by
  unfold pickNode measure
  dsimp only
  split
  · simp only
    omega
  · next nonEmpty =>
    have positive : 0 < domain.candidates.length := by
      rw [Domain.pick_candidates] at nonEmpty
      exact List.length_pos_iff.mpr fun empty => nonEmpty (by simp [empty])
    simp [candidateCount] at positive ⊢
    omega

end ChooseState

variable {order : PopOrder Domain} {writeableOnly : Bool} {minNodesPerDomain minTotalNodes step : Nat}
  {state next : ChooseState}

theorem chooseTurn_eq_next
    (turn : chooseTurn order writeableOnly minNodesPerDomain minTotalNodes step state = .next next) :
    ∃ domain rest, order.pop step state.queue = some (domain, rest) ∧
      state.output.nodes.length < maxNodesetSize ∧
      ((writeableOnly = true ∧ (domain.retain writeableOnly).candidates = [] ∧
          next = { state with queue := rest, done := domain.retain writeableOnly :: state.done }) ∨
        ∃ node, (domain.retain writeableOnly).candidates.getLast? = some node ∧
          next = state.pickNode rest (domain.retain writeableOnly) node) := by
  unfold chooseTurn at turn
  cases popped : order.pop step state.queue with
  | none => simp [popped] at turn
  | some pair =>
    obtain ⟨domain, rest⟩ := pair
    simp only [popped] at turn
    -- the three breaks stop the loop
    by_cases enough : minNodesPerDomain ≤ domain.countPicked writeableOnly ∧ minTotalNodes ≤ state.pickedSoFar
    · simp [enough] at turn
    by_cases full : maxNodesetSize ≤ state.output.nodes.length
    · simp [enough, full] at turn
    by_cases half : (!writeableOnly) = true ∧ maxNodesetSize / 2 ≤ state.output.nodes.length
    · simp [enough, full, half] at turn
    rw [if_neg enough, if_neg full, if_neg half] at turn
    refine ⟨domain, rest, rfl, Nat.lt_of_not_le full, ?_⟩
    split at turn
    · next aside =>
      cases turn
      exact .inl ⟨aside.1, aside.2, rfl⟩
    · split at turn
      · cases turn
      · next node last =>
        cases turn
        exact .inr ⟨node, last, rfl⟩

/-- What a turn that stops the loop saw: an empty pop, or a domain popped when the nodeset had
enough nodes in all and from that domain, or had reached a size limit. It hands back every domain
and the nodeset as they were. -/
theorem chooseTurn_eq_stop {domains : List Domain} {output : NodeSet}
    (turn : chooseTurn order writeableOnly minNodesPerDomain minTotalNodes step state = .stop domains output) :
    output = state.output ∧
      ((order.pop step state.queue = none ∧ domains = state.queue ++ state.done) ∨
        ∃ domain rest, order.pop step state.queue = some (domain, rest) ∧ domains = domain :: rest ++ state.done ∧
          ((minNodesPerDomain ≤ domain.countPicked writeableOnly ∧ minTotalNodes ≤ state.pickedSoFar) ∨
            maxNodesetSize ≤ state.output.nodes.length ∨
            (writeableOnly = false ∧ maxNodesetSize / 2 ≤ state.output.nodes.length))) := by
  unfold chooseTurn at turn
  cases popped : order.pop step state.queue with
  | none =>
    simp only [popped, Turn.stop.injEq] at turn
    exact ⟨turn.2.symm, .inl ⟨rfl, turn.1.symm⟩⟩
  | some pair =>
    obtain ⟨domain, rest⟩ := pair
    simp only [popped] at turn
    by_cases enough : minNodesPerDomain ≤ domain.countPicked writeableOnly ∧ minTotalNodes ≤ state.pickedSoFar
    · rw [if_pos enough, Turn.stop.injEq] at turn
      exact ⟨turn.2.symm, .inr ⟨domain, rest, rfl, turn.1.symm, .inl enough⟩⟩
    by_cases full : maxNodesetSize ≤ state.output.nodes.length
    · rw [if_neg enough, if_pos full, Turn.stop.injEq] at turn
      exact ⟨turn.2.symm, .inr ⟨domain, rest, rfl, turn.1.symm, .inr (.inl full)⟩⟩
    by_cases half : (!writeableOnly) = true ∧ maxNodesetSize / 2 ≤ state.output.nodes.length
    · rw [if_neg enough, if_neg full, if_pos half, Turn.stop.injEq] at turn
      exact ⟨turn.2.symm, .inr ⟨domain, rest, rfl, turn.1.symm, .inr (.inr ⟨by simpa using half.1, half.2⟩)⟩⟩
    -- past the breaks, a turn goes on or panics
    rw [if_neg enough, if_neg full, if_neg half] at turn
    split at turn
    · cases turn
    · split at turn <;> cases turn

theorem chooseTurn_ne_panic (nonEmpty : ∀ domain ∈ state.queue, domain.candidates ≠ []) :
    chooseTurn order writeableOnly minNodesPerDomain minTotalNodes step state ≠ .panic := by
  intro turn
  unfold chooseTurn at turn
  cases popped : order.pop step state.queue with
  | none => simp [popped] at turn
  | some pair =>
    obtain ⟨domain, rest⟩ := pair
    have candidates := nonEmpty domain (PopOrder.mem_of_pop popped)
    simp only [popped] at turn
    split at turn
    · cases turn
    split at turn
    · cases turn
    split at turn
    · cases turn
    split at turn
    · cases turn
    · next kept =>
      split at turn
      · next noLast =>
        have empty := List.getLast?_eq_none_iff.mp noLast
        cases writeableOnly
        · exact candidates (by simpa using empty)
        · exact kept ⟨rfl, empty⟩
      · cases turn

theorem chooseTurn_measure
    (turn : chooseTurn order writeableOnly minNodesPerDomain minTotalNodes step state = .next next) :
    next.measure < state.measure := by
  obtain ⟨domain, rest, popped, -, ⟨-, -, rfl⟩ | ⟨node, -, rfl⟩⟩ := chooseTurn_eq_next turn
  all_goals
    have queue := PopOrder.pop_perm popped
    have length := queue.length_eq
    have count := candidateCount_perm queue
    simp only [List.length_cons, candidateCount_cons] at length count
  · simp only [ChooseState.measure]
    omega
  · have kept := (domain.retain_sublist writeableOnly).length_le
    have picked := state.pickNode_measure rest (domain.retain writeableOnly) node
    simp only [ChooseState.measure] at picked ⊢
    omega

theorem chooseLoop_invariant (Inv : ChooseState → Prop)
    (keeps : ∀ step state next, Inv state →
      chooseTurn order writeableOnly minNodesPerDomain minTotalNodes step state = .next next → Inv next) :
    ∀ fuel step state result, Inv state →
      chooseLoop order writeableOnly minNodesPerDomain minTotalNodes fuel step state = some result →
      ∃ lastStep last, Inv last ∧
        chooseTurn order writeableOnly minNodesPerDomain minTotalNodes lastStep last = .stop result.1 result.2 := by
  intro fuel
  induction fuel with
  | zero =>
    intro step state result _ ran
    cases ran
  | succ fuel ih =>
    intro step state result holds ran
    cases turn : chooseTurn order writeableOnly minNodesPerDomain minTotalNodes step state with
    | stop domains output =>
      simp only [chooseLoop, turn, Option.some.injEq] at ran
      subst ran
      exact ⟨step, state, holds, turn⟩
    | next following =>
      simp only [chooseLoop, turn] at ran
      exact ih (step + 1) following result (keeps step state following holds turn) ran
    | panic => simp [chooseLoop, turn] at ran

theorem chooseLoop_isSome (Inv : ChooseState → Prop)
    (keeps : ∀ step state next, Inv state →
      chooseTurn order writeableOnly minNodesPerDomain minTotalNodes step state = .next next → Inv next)
    (noPanic : ∀ step state, Inv state → chooseTurn order writeableOnly minNodesPerDomain minTotalNodes step state ≠ .panic) :
    ∀ fuel step state, Inv state → state.measure < fuel →
      (chooseLoop order writeableOnly minNodesPerDomain minTotalNodes fuel step state).isSome := by
  intro fuel
  induction fuel with
  | zero =>
    intro step state _ within
    omega
  | succ fuel ih =>
    intro step state holds within
    cases turn : chooseTurn order writeableOnly minNodesPerDomain minTotalNodes step state with
    | stop domains output => simp [chooseLoop, turn]
    | next following =>
      simp only [chooseLoop, turn]
      have lower := chooseTurn_measure turn
      exact ih (step + 1) following (keeps step state following holds turn) (by omega)
    | panic => exact absurd turn (noPanic step state holds)

/-- What every turn keeps: the nodeset and the candidates left are distinct candidates, the heap
holds no exhausted domain, and the nodeset is within its limit. -/
structure Invariant (ids : List PlainNodeId) (state : ChooseState) : Prop where
  within : (state.output.nodes ++ remainingIds (state.queue ++ state.done)).Subperm ids
  nonEmpty : ∀ domain ∈ state.queue, domain.candidates ≠ []
  bounded : state.output.nodes.length ≤ maxNodesetSize

/-- What the first phase keeps besides: it drops no candidate, the domains it set aside are
exhausted, and it counts every node of the nodeset as picked. -/
structure FirstPhase (ids : List PlainNodeId) (state : ChooseState) : Prop where
  all : (state.output.nodes ++ remainingIds (state.queue ++ state.done)).Perm ids
  exhausted : ∀ domain ∈ state.done, domain.candidates = []
  counted : state.pickedSoFar = state.output.nodes.length

variable {ids : List PlainNodeId}

theorem Invariant.nodup (holds : Invariant ids state) (distinct : ids.Nodup) :
    (state.output.nodes ++ remainingIds (state.queue ++ state.done)).Nodup := by
  obtain ⟨listed, perm, sub⟩ := holds.within
  exact perm.nodup_iff.mp (sub.nodup distinct)

theorem nodeId_not_mem_output (distinct : (state.output.nodes ++ remainingIds (state.queue ++ state.done)).Nodup)
    {domain : Domain} {rest : List Domain} (popped : order.pop step state.queue = some (domain, rest))
    {node : CandidateNode} (member : node ∈ (domain.retain writeableOnly).candidates) :
    node.nodeId ∉ state.output.nodes := by
  have left : node.nodeId ∈ remainingIds (state.queue ++ state.done) :=
    mem_remainingIds (List.mem_append_left _ (PopOrder.mem_of_pop popped))
      ((domain.retain_sublist writeableOnly).subset member)
  exact fun inOutput => List.disjoint_of_nodup_append distinct inOutput left

theorem chooseTurn_next_perm (distinct : (state.output.nodes ++ remainingIds (state.queue ++ state.done)).Nodup)
    (turn : chooseTurn order writeableOnly minNodesPerDomain minTotalNodes step state = .next next) :
    ∃ domain rest, order.pop step state.queue = some (domain, rest) ∧
      (next.output.nodes ++ remainingIds (next.queue ++ next.done)).Perm
        (state.output.nodes ++ (domain.retain writeableOnly).candidates.map (·.nodeId) ++
          remainingIds (rest ++ state.done)) := by
  obtain ⟨domain, rest, popped, -, ⟨-, empty, rfl⟩ | ⟨node, last, rfl⟩⟩ := chooseTurn_eq_next turn
  · refine ⟨domain, rest, popped, ?_⟩
    simp [empty]
  · refine ⟨domain, rest, popped, ?_⟩
    have split := List.dropLast_append_getLast? node last
    have fresh := nodeId_not_mem_output distinct popped (List.mem_of_getLast? last)
    rw [ChooseState.pickNode_domains, ChooseState.pickNode_output, NodeSet.insert_of_not_mem fresh, ← split]
    refine List.perm_iff_count.mpr fun id => ?_
    simp only [remainingIds_append, remainingIds_cons, Domain.pick_candidates,
      List.map_append, List.map_cons, List.map_nil, List.count_append]
    omega

theorem Invariant.turn (distinct : ids.Nodup) (holds : Invariant ids state)
    (turn : chooseTurn order writeableOnly minNodesPerDomain minTotalNodes step state = .next next) :
    Invariant ids next where
  within := by
    obtain ⟨domain, rest, popped, moved⟩ := chooseTurn_next_perm (holds.nodup distinct) turn
    have queue := remainingIds_perm ((PopOrder.pop_perm popped).append_right state.done)
    rw [List.cons_append, remainingIds_cons] at queue
    have kept := ((domain.retain_sublist writeableOnly).map (·.nodeId)).append_right
      (remainingIds (rest ++ state.done))
    refine moved.subperm.trans (List.Subperm.trans ?_ holds.within)
    rw [List.append_assoc]
    exact ((kept.append_left state.output.nodes).subperm).trans ((queue.append_left _).subperm)
  nonEmpty := by
    obtain ⟨domain, rest, popped, -, ⟨-, -, rfl⟩ | ⟨node, -, rfl⟩⟩ := chooseTurn_eq_next turn
    · exact fun other member => holds.nonEmpty other ((PopOrder.pop_perm popped).subset (List.mem_cons_of_mem _ member))
    · intro other member
      rcases state.mem_pickNode_queue rest _ node member with inRest | ⟨rfl, nonEmpty⟩
      · exact holds.nonEmpty other ((PopOrder.pop_perm popped).subset (List.mem_cons_of_mem _ inRest))
      · exact nonEmpty
  bounded := by
    obtain ⟨domain, rest, -, below, ⟨-, -, rfl⟩ | ⟨node, -, rfl⟩⟩ := chooseTurn_eq_next turn
    · exact holds.bounded
    · have grown := state.output.length_insert_le node.nodeId
      rw [ChooseState.pickNode_output]
      omega

theorem FirstPhase.turn (distinct : ids.Nodup) (holds : Invariant ids state) (first : FirstPhase ids state)
    (turn : chooseTurn order false minNodesPerDomain minTotalNodes step state = .next next) :
    FirstPhase ids next := by
  obtain ⟨domain, rest, popped, -, ⟨absurd, -, -⟩ | ⟨node, last, rfl⟩⟩ := chooseTurn_eq_next turn
  · cases absurd
  rw [Domain.retain_false] at last ⊢
  have member : node ∈ (domain.retain false).candidates := List.mem_of_getLast? last
  have fresh := nodeId_not_mem_output (holds.nodup distinct) popped member
  refine ⟨?_, ?_, ?_⟩
  · -- the first phase keeps every candidate of the popped domain
    obtain ⟨domain', rest', popped', moved⟩ := chooseTurn_next_perm (holds.nodup distinct) turn
    rw [popped] at popped'
    cases popped'
    have queue := remainingIds_perm ((PopOrder.pop_perm popped).append_right state.done)
    rw [List.cons_append, remainingIds_cons] at queue
    rw [Domain.retain_false, List.append_assoc] at moved
    exact moved.trans ((queue.append_left _).trans first.all)
  · intro other member
    rcases state.mem_pickNode_done rest domain node member with inDone | ⟨rfl, exhausted⟩
    · exact first.exhausted other inDone
    · exact exhausted
  · rw [ChooseState.pickNode_pickedSoFar, ChooseState.pickNode_output, NodeSet.insert_of_not_mem fresh,
      List.length_append, List.length_singleton, first.counted]

theorem chooseTurn_output_subset
    (turn : chooseTurn order writeableOnly minNodesPerDomain minTotalNodes step state = .next next) :
    state.output.nodes ⊆ next.output.nodes := by
  obtain ⟨domain, rest, -, -, ⟨-, -, rfl⟩ | ⟨node, -, rfl⟩⟩ := chooseTurn_eq_next turn
  · exact List.Subset.refl _
  · rw [ChooseState.pickNode_output]
    exact state.output.subset_insert node.nodeId

theorem Invariant.stop (holds : Invariant ids state) {domains : List Domain} {output : NodeSet}
    (turn : chooseTurn order writeableOnly minNodesPerDomain minTotalNodes step state = .stop domains output) :
    (output.nodes ++ remainingIds domains).Subperm ids ∧ output.nodes.length ≤ maxNodesetSize := by
  obtain ⟨rfl, ⟨-, rfl⟩ | ⟨domain, rest, popped, rfl, -⟩⟩ := chooseTurn_eq_stop turn
  · exact ⟨holds.within, holds.bounded⟩
  · have queue := remainingIds_perm ((PopOrder.pop_perm popped).append_right state.done)
    exact ⟨((queue.append_left _).subperm).trans holds.within, holds.bounded⟩

theorem chooseLoop_run (distinct : ids.Nodup) (holds : Invariant ids state) {fuel : Nat} (enough : state.measure < fuel) :
    ∃ domains output, chooseLoop order writeableOnly minNodesPerDomain minTotalNodes fuel step state = some (domains, output) ∧
      (output.nodes ++ remainingIds domains).Subperm ids ∧ output.nodes.length ≤ maxNodesetSize ∧
      state.output.nodes ⊆ output.nodes := by
  let Inv := fun following : ChooseState => Invariant ids following ∧ state.output.nodes ⊆ following.output.nodes
  have keeps : ∀ step state next, Inv state →
      chooseTurn order writeableOnly minNodesPerDomain minTotalNodes step state = .next next → Inv next :=
    fun _ _ _ held turn => ⟨held.1.turn distinct turn, List.Subset.trans held.2 (chooseTurn_output_subset turn)⟩
  have stops := chooseLoop_isSome Inv keeps (fun _ _ held => chooseTurn_ne_panic held.1.nonEmpty) fuel step state
    ⟨holds, List.Subset.refl _⟩ enough
  obtain ⟨⟨domains, output⟩, ran⟩ := Option.isSome_iff_exists.mp stops
  obtain ⟨lastStep, last, ⟨lastHolds, grown⟩, turn⟩ :=
    chooseLoop_invariant Inv keeps fuel step state _ ⟨holds, List.Subset.refl _⟩ ran
  obtain ⟨within, bounded⟩ := lastHolds.stop turn
  have same : output = last.output := (chooseTurn_eq_stop turn).1
  refine ⟨domains, output, ran, within, bounded, ?_⟩
  rw [same]
  exact grown

theorem FirstPhase.stop {cmp : Domain → Domain → Ordering} (lawful : order.Lawful cmp) (first : FirstPhase ids state)
    {domains : List Domain} {output : NodeSet}
    (turn : chooseTurn order false minNodesPerDomain minTotalNodes step state = .stop domains output) :
    (output.nodes ++ remainingIds domains).Perm ids ∧
      min ids.length (min minTotalNodes (maxNodesetSize / 2)) ≤ output.nodes.length := by
  obtain ⟨rfl, ⟨drained, rfl⟩ | ⟨domain, rest, popped, rfl, reason⟩⟩ := chooseTurn_eq_stop turn
  · -- an empty heap: every domain is set aside and exhausted
    have empty := (PopOrder.pop_eq_none lawful).mp drained
    have all := first.all
    rw [empty, List.nil_append, remainingIds_eq_nil first.exhausted, List.append_nil] at all
    refine ⟨by simpa [empty, remainingIds_eq_nil first.exhausted] using all, ?_⟩
    rw [← all.length_eq]
    omega
  · have queue := remainingIds_perm ((PopOrder.pop_perm popped).append_right state.done)
    refine ⟨(queue.append_left _).trans first.all, ?_⟩
    have counted := first.counted
    simp only [maxNodesetSize] at reason ⊢
    omega

theorem chooseLoop_first (distinct : ids.Nodup) {cmp : Domain → Domain → Ordering} (lawful : order.Lawful cmp)
    (holds : Invariant ids state) (first : FirstPhase ids state) {fuel : Nat} (enough : state.measure < fuel) :
    ∃ domains output, chooseLoop order false minNodesPerDomain minTotalNodes fuel step state = some (domains, output) ∧
      (output.nodes ++ remainingIds domains).Perm ids ∧
      min ids.length (min minTotalNodes (maxNodesetSize / 2)) ≤ output.nodes.length ∧
      output.nodes.length ≤ maxNodesetSize ∧ state.output.nodes ⊆ output.nodes := by
  obtain ⟨domains, output, ran, -, bounded, grown⟩ := chooseLoop_run distinct holds enough
  let Inv := fun following : ChooseState => Invariant ids following ∧ FirstPhase ids following
  have keeps : ∀ step state next, Inv state →
      chooseTurn order false minNodesPerDomain minTotalNodes step state = .next next → Inv next :=
    fun _ _ _ held turn => ⟨held.1.turn distinct turn, held.2.turn distinct held.1 turn⟩
  obtain ⟨lastStep, last, ⟨-, lastFirst⟩, turn⟩ := chooseLoop_invariant Inv keeps fuel step state _ ⟨holds, first⟩ ran
  obtain ⟨all, large⟩ := lastFirst.stop lawful turn
  exact ⟨domains, output, ran, all, large, bounded, grown⟩

theorem chooseTurn_first {domain : Domain} {rest : List Domain} {node : CandidateNode}
    (popped : order.pop step state.queue = some (domain, rest)) (short : state.pickedSoFar < minTotalNodes)
    (empty : state.output.nodes = []) (last : domain.candidates.getLast? = some node) :
    chooseTurn order false minNodesPerDomain minTotalNodes step state = .next (state.pickNode rest domain node) := by
  have notEnough : ¬(minNodesPerDomain ≤ domain.countPicked false ∧ minTotalNodes ≤ state.pickedSoFar) :=
    fun enough => absurd enough.2 (Nat.not_le.mpr short)
  unfold chooseTurn
  simp [popped, notEnough, empty, last, maxNodesetSize]

theorem flagged_of_ordDomainCmp_gt {self other : Domain} (flagged : other.isTopPriority = true)
    (above : ordDomainCmp writeableOnly self other = .gt) : self.isTopPriority = true := by
  cases selfFlag : self.isTopPriority
  · unfold ordDomainCmp at above
    rw [selfFlag, flagged] at above
    cases above
  · rfl

theorem pop_flagged (lawful : order.Lawful (ordDomainCmp writeableOnly)) {queue : List Domain}
    (flagged : ∃ domain ∈ queue, domain.isTopPriority = true) :
    ∃ domain rest, order.pop step queue = some (domain, rest) ∧ domain.isTopPriority = true := by
  obtain ⟨domain, member, flag⟩ := flagged
  obtain ⟨i, inside, rfl⟩ := List.getElem_of_mem member
  have dominates : PopOrder.Dominates (ordDomainCmp writeableOnly) queue i := by
    refine ⟨inside, fun j _ _ => ?_⟩
    unfold ordDomainCmp
    rw [flag]
  have found : ∃ j, PopOrder.Dominates (ordDomainCmp writeableOnly) queue j ∧
      ∃ inside : j < queue.length, order.pop step queue = some (queue[j], queue.eraseIdx j) :=
    PopOrder.pop_dominant lawful dominates
  obtain ⟨j, dominant, within, popped⟩ := found
  refine ⟨queue[j], queue.eraseIdx j, popped, ?_⟩
  by_cases same : j = i
  · subst same
    exact flag
  · exact flagged_of_ordDomainCmp_gt flag (dominant.2 i inside (Ne.symm same))

theorem remainingIds_start (domains : List Domain) :
    (remainingIds (domains.filter (fun domain => !domain.candidates.isEmpty) ++
      domains.filter (·.candidates.isEmpty))).Perm (remainingIds domains) := by
  have split := List.filter_append_perm (fun domain : Domain => !domain.candidates.isEmpty) domains
  simp only [Bool.not_not] at split
  exact remainingIds_perm split

theorem invariant_start {domains : List Domain} {output : NodeSet}
    (within : (output.nodes ++ remainingIds domains).Subperm ids) (bounded : output.nodes.length ≤ maxNodesetSize)
    (picked : Nat) :
    Invariant ids ⟨domains.filter (fun domain => !domain.candidates.isEmpty), domains.filter (·.candidates.isEmpty),
      output, picked⟩ where
  within := (((remainingIds_start domains).append_left _).subperm).trans within
  nonEmpty := by
    intro domain member
    simpa using (List.mem_filter.mp member).2
  bounded := bounded

theorem chooseDomains_first (minNodesPerDomain minTotalNodes : Nat) (distinct : ids.Nodup)
    (lawful : order.Lawful (ordDomainCmp false))
    {domains : List Domain} (all : (remainingIds domains).Perm ids)
    (fresh : ∀ domain ∈ domains, domain.numTotalPicked = 0) :
    ∃ domains' output, chooseDomains order false minNodesPerDomain minTotalNodes domains NodeSet.empty =
        some (domains', output) ∧
      (output.nodes ++ remainingIds domains').Perm ids ∧
      min ids.length (min minTotalNodes (maxNodesetSize / 2)) ≤ output.nodes.length ∧
      output.nodes.length ≤ maxNodesetSize := by
  have counted : (domains.map fun domain => domain.countPicked false).sum = 0 :=
    List.sum_eq_zero fun picked member => by
      obtain ⟨domain, inDomains, rfl⟩ := List.mem_map.mp member
      exact fresh domain inDomains
  have within : (NodeSet.empty.nodes ++ remainingIds domains).Subperm ids := all.subperm
  have holds : Invariant ids ⟨domains.filter (fun domain => !domain.candidates.isEmpty),
      domains.filter (·.candidates.isEmpty), NodeSet.empty, (domains.map fun domain => domain.countPicked false).sum⟩ :=
    invariant_start within (Nat.zero_le _) _
  have first : FirstPhase ids ⟨domains.filter (fun domain => !domain.candidates.isEmpty),
      domains.filter (·.candidates.isEmpty), NodeSet.empty, (domains.map fun domain => domain.countPicked false).sum⟩ :=
    ⟨(remainingIds_start domains).trans all, fun domain member => by simpa using (List.mem_filter.mp member).2,
      counted⟩
  obtain ⟨domains', output, ran, all', large, bounded, -⟩ := chooseLoop_first distinct lawful holds first
    (Nat.lt_succ_self _)
  exact ⟨domains', output, ran, all', large, bounded⟩

theorem chooseDomains_second (order : PopOrder Domain) (writeableOnly : Bool) (minNodesPerDomain minTotalNodes : Nat)
    (distinct : ids.Nodup) {domains : List Domain} {output : NodeSet}
    (within : (output.nodes ++ remainingIds domains).Subperm ids) (bounded : output.nodes.length ≤ maxNodesetSize) :
    ∃ domains' output', chooseDomains order writeableOnly minNodesPerDomain minTotalNodes domains output =
        some (domains', output') ∧
      (output'.nodes ++ remainingIds domains').Subperm ids ∧ output'.nodes.length ≤ maxNodesetSize ∧
      output.nodes ⊆ output'.nodes :=
  chooseLoop_run distinct (invariant_start within bounded _) (Nat.lt_succ_self _)

theorem mem_chooseDomains_first (lawful : order.Lawful (ordDomainCmp false)) {domains domains' : List Domain}
    {output : NodeSet} (positive : 0 < minTotalNodes) (fresh : ∀ domain ∈ domains, domain.numTotalPicked = 0)
    {top : PlainNodeId}
    (flaggedLast : ∀ domain ∈ domains, domain.isTopPriority = true →
      ∃ node, domain.candidates.getLast? = some node ∧ node.nodeId = top)
    (flagged : ∃ domain ∈ domains, domain.isTopPriority = true)
    (ran : chooseDomains order false minNodesPerDomain minTotalNodes domains NodeSet.empty = some (domains', output)) :
    top ∈ output.nodes := by
  let start : ChooseState := ⟨domains.filter (fun domain => !domain.candidates.isEmpty),
    domains.filter (·.candidates.isEmpty), NodeSet.empty, (domains.map fun domain => domain.countPicked false).sum⟩
  have onHeap : ∃ domain ∈ start.queue, domain.isTopPriority = true := by
    obtain ⟨domain, member, flag⟩ := flagged
    obtain ⟨node, last, -⟩ := flaggedLast domain member flag
    have nonEmpty : domain.candidates ≠ [] := fun empty => by simp [empty] at last
    exact ⟨domain, List.mem_filter.mpr ⟨member, by simpa using nonEmpty⟩, flag⟩
  have popFlagged : ∃ domain rest, order.pop 0 start.queue = some (domain, rest) ∧ domain.isTopPriority = true :=
    pop_flagged lawful onHeap
  obtain ⟨domain, rest, popped, flag⟩ := popFlagged
  have inDomains : domain ∈ domains := (List.mem_filter.mp (PopOrder.mem_of_pop popped)).1
  obtain ⟨node, last, rfl⟩ := flaggedLast domain inDomains flag
  have noneYet : start.pickedSoFar = 0 :=
    List.sum_eq_zero fun picked member => by
      obtain ⟨domain, inDomains, rfl⟩ := List.mem_map.mp member
      exact fresh domain inDomains
  have short : start.pickedSoFar < minTotalNodes := by
    rw [noneYet]
    exact positive
  have turn : chooseTurn order false minNodesPerDomain minTotalNodes 0 start = .next (start.pickNode rest domain node) :=
    chooseTurn_first popped short rfl last
  -- after the first turn the node stays in the nodeset until the loop stops
  have picked : node.nodeId ∈ (start.pickNode rest domain node).output.nodes := by
    simp [ChooseState.pickNode_output, NodeSet.mem_insert]
  have rest_ran : chooseLoop order false minNodesPerDomain minTotalNodes start.measure 1
      (start.pickNode rest domain node) = some (domains', output) := by
    have unfolded : chooseDomains order false minNodesPerDomain minTotalNodes domains NodeSet.empty =
        chooseLoop order false minNodesPerDomain minTotalNodes (start.measure + 1) 0 start := rfl
    rw [unfolded] at ran
    simpa only [chooseLoop, turn, Nat.zero_add] using ran
  obtain ⟨lastStep, last', kept, stopped⟩ := chooseLoop_invariant (fun state => node.nodeId ∈ state.output.nodes)
    (fun _ _ _ held turn => chooseTurn_output_subset turn held) _ _ _ _ picked rest_ran
  have same : output = last'.output := (chooseTurn_eq_stop stopped).1
  rw [same]
  exact kept

end NodeSetSelector

end Restate

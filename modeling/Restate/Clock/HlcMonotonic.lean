import Restate.Clock.Hlc
import Mathlib.Data.Nat.Bitwise

/-! Monotonicity of the hybrid logical clock. A timestamp's raw value is its physical part times
2^22 plus its logical part, so the clock's rules compare pairs lexicographically. Every call that
stores a timestamp stores one above the stored state, so along a run of calls the stored state
only grows, and what a call returns is what it stored. -/

namespace Restate

namespace UniqueTimestamp

theorem pack_eq (phy lc : Nat) (lcBound : lc < 2 ^ 22) :
    (phy <<< lcBits) ||| lc = phy * 2 ^ 22 + lc := by
  have bits : lcBits = 22 := rfl
  rw [bits, ← Nat.shiftLeft_add_eq_or_of_lt lcBound, Nat.shiftLeft_eq]

theorem unpack_eq (raw : Nat) (rawBound : raw < 2 ^ 64) :
    (raw >>> lcBits) &&& phyTimeMax = raw / 2 ^ 22 ∧ raw &&& lcMax = raw % 2 ^ 22 := by
  have phyMax : phyTimeMax = 2 ^ 42 - 1 := by decide
  have lcMaxEq : lcMax = 2 ^ 22 - 1 := by decide
  have bits : lcBits = 22 := rfl
  rw [phyMax, lcMaxEq, bits, Nat.and_two_pow_sub_one_eq_mod, Nat.and_two_pow_sub_one_eq_mod,
    Nat.shiftRight_eq_div_pow]
  exact ⟨Nat.mod_eq_of_lt (by omega), rfl⟩

theorem split_eq (timestamp : UniqueTimestamp) :
    timestamp.split = (timestamp.raw / 2 ^ 22, timestamp.raw % 2 ^ 22) := by
  obtain ⟨phy, lc⟩ := unpack_eq timestamp.raw (by have := timestamp.raw_lt; omega)
  simp only [split, phy, lc]

theorem fromPartsUnchecked_raw {phy lc : Nat} {timestamp : UniqueTimestamp}
    (made : fromPartsUnchecked phy lc = some timestamp) :
    lc < 2 ^ 22 ∧ timestamp.raw = phy * 2 ^ 22 + lc := by
  have lcMaxEq : lcMax = 2 ^ 22 - 1 := by decide
  unfold fromPartsUnchecked at made
  split at made
  · next checks =>
    obtain ⟨-, lcBound, fits⟩ := checks
    cases made
    have lcLt : lc < 2 ^ 22 := by omega
    rw [pack_eq phy lc lcLt] at fits ⊢
    exact ⟨lcLt, by simp only [new]; omega⟩
  · cases made

theorem tryFromParts_raw {phy lc : Nat} {timestamp : UniqueTimestamp}
    (made : tryFromParts phy lc = .ok timestamp) :
    lc < 2 ^ 22 ∧ timestamp.raw = phy * 2 ^ 22 + lc := by
  have phyMax : phyTimeMax = 2 ^ 42 - 1 := by decide
  have lcMaxEq : lcMax = 2 ^ 22 - 1 := by decide
  unfold tryFromParts at made
  split at made
  · cases made
  split at made
  · cases made
  split at made
  · cases made
  next phyBound lcBound notMax =>
    cases made
    have lcLt : lc < 2 ^ 22 := by omega
    rw [pack_eq phy lc lcLt]
    refine ⟨lcLt, ?_⟩
    simp only [new]
    have below : phy * 2 ^ 22 + lc ≤ 2 ^ 64 - 2 := by omega
    omega

theorem raw_eq_parts (timestamp : UniqueTimestamp) :
    timestamp.raw = timestamp.raw / 2 ^ 22 * 2 ^ 22 + timestamp.raw % 2 ^ 22 :=
  (Nat.div_add_mod' timestamp.raw (2 ^ 22)).symm

end UniqueTimestamp

theorem packed_lt {phy phy' lc lc' : Nat} (lcBound : lc < 2 ^ 22)
    (lex : phy < phy' ∨ phy = phy' ∧ lc < lc') : phy * 2 ^ 22 + lc < phy' * 2 ^ 22 + lc' := by
  rcases lex with less | ⟨rfl, less⟩
  · have : (phy + 1) * 2 ^ 22 ≤ phy' * 2 ^ 22 := Nat.mul_le_mul_right _ less
    omega
  · omega

namespace HlcClock

theorem map_ok_eq_some {made : Option UniqueTimestamp} {timestamp : UniqueTimestamp} :
    (made.map .ok : Option (Except ClockError UniqueTimestamp)) = some (.ok timestamp) ↔
      made = some timestamp := by
  cases made <;> simp

theorem updateState_ok {clock next : HlcClock}
    {updateFn : Nat × Nat → Option (Except ClockError UniqueTimestamp)} {timestamp : UniqueTimestamp}
    (updated : clock.updateState updateFn = some (next, .ok timestamp)) :
    updateFn (clock.state.raw / 2 ^ 22, clock.state.raw % 2 ^ 22) = some (.ok timestamp) ∧
      next = { clock with state := timestamp } := by
  obtain ⟨phy, lc⟩ := UniqueTimestamp.unpack_eq clock.state.raw
    (by have := clock.state.raw_lt; omega)
  simp only [updateState, phy, lc, Option.map_eq_some_iff] at updated
  obtain ⟨result, fn, stored⟩ := updated
  cases result with
  | ok updatedTimestamp =>
    simp only [Prod.mk.injEq, Except.ok.injEq] at stored
    obtain ⟨rfl, rfl⟩ := stored
    exact ⟨fn, rfl⟩
  | error e => simp at stored

theorem updateState_error {clock next : HlcClock}
    {updateFn : Nat × Nat → Option (Except ClockError UniqueTimestamp)} {e : ClockError}
    (updated : clock.updateState updateFn = some (next, .error e)) : next = clock := by
  simp only [updateState, Option.map_eq_some_iff] at updated
  obtain ⟨result, -, stored⟩ := updated
  cases result with
  | ok updatedTimestamp => simp at stored
  | error e' =>
    simp only [Prod.mk.injEq] at stored
    exact stored.1.symm

theorem next_advances {clock next : HlcClock} {recent : Nat} {timestamp : UniqueTimestamp}
    (advanced : clock.next recent = some (next, timestamp)) :
    clock.state < timestamp ∧ next = { clock with state := timestamp } := by
  unfold HlcClock.next at advanced
  dsimp only at advanced
  split at advanced
  · next stored next' timestamp' updated =>
    cases advanced
    obtain ⟨fn, rfl⟩ := updateState_ok updated
    refine ⟨?_, rfl⟩
    rw [UniqueTimestamp.lt_iff, clock.state.raw_eq_parts]
    dsimp only at fn
    split at fn
    · -- the physical clock is behind the state: the logical counter goes up
      obtain ⟨-, raw⟩ := UniqueTimestamp.fromPartsUnchecked_raw (map_ok_eq_some.mp fn)
      omega
    · -- the physical clock is ahead: its reading with a zero counter
      obtain ⟨-, raw⟩ := UniqueTimestamp.fromPartsUnchecked_raw (map_ok_eq_some.mp fn)
      rw [raw]
      exact packed_lt (Nat.mod_lt _ (by decide)) (.inl (by omega))
  · cases advanced

theorem tryUpdate_advances {clock next : HlcClock} {recent : Nat}
    {incoming timestamp : UniqueTimestamp}
    (updated : clock.tryUpdate recent incoming = some (next, .ok timestamp)) :
    clock.state < timestamp ∧ incoming < timestamp ∧ next = { clock with state := timestamp } := by
  unfold HlcClock.tryUpdate at updated
  dsimp only at updated
  obtain ⟨fn, rfl⟩ := updateState_ok updated
  rw [UniqueTimestamp.split_eq] at fn
  dsimp only at fn
  rw [UniqueTimestamp.lt_iff, UniqueTimestamp.lt_iff, clock.state.raw_eq_parts, incoming.raw_eq_parts]
  have myLcBound : clock.state.raw % 2 ^ 22 < 2 ^ 22 := Nat.mod_lt _ (by decide)
  have inLcBound : incoming.raw % 2 ^ 22 < 2 ^ 22 := Nat.mod_lt _ (by decide)
  generalize clock.state.raw / 2 ^ 22 = myPhy, clock.state.raw % 2 ^ 22 = myLc,
    incoming.raw / 2 ^ 22 = inPhy, incoming.raw % 2 ^ 22 = inLc at fn myLcBound inLcBound ⊢
  generalize wrappingSub recent restateEpoch = phyClockNow at fn
  suffices advances : myPhy * 2 ^ 22 + myLc < timestamp.raw ∧ inPhy * 2 ^ 22 + inLc < timestamp.raw
    from ⟨advances.1, advances.2, rfl⟩
  split at fn
  · -- the fast path: the physical clock is ahead of both
    next ahead =>
    obtain ⟨-, raw⟩ := UniqueTimestamp.fromPartsUnchecked_raw (map_ok_eq_some.mp fn)
    rw [raw]
    exact ⟨packed_lt myLcBound (.inl ahead.2), packed_lt inLcBound (.inl ahead.1)⟩
  split at fn
  · -- the incoming timestamp is ahead of the state: it is taken with its counter bumped
    next order =>
    have ahead := Nat.compare_eq_gt.mp order
    have made : UniqueTimestamp.tryFromParts inPhy (inLc + 1) = .ok timestamp := by
      split at fn
      · split at fn
        · simp at fn
        · exact Option.some.inj fn
      · exact Option.some.inj fn
    obtain ⟨-, raw⟩ := UniqueTimestamp.tryFromParts_raw made
    rw [raw]
    exact ⟨packed_lt myLcBound (.inl ahead), packed_lt inLcBound (.inr ⟨rfl, by omega⟩)⟩
  · -- the state is ahead: its counter is bumped
    next order =>
    have behind := Nat.compare_eq_lt.mp order
    obtain ⟨-, raw⟩ := UniqueTimestamp.fromPartsUnchecked_raw (map_ok_eq_some.mp fn)
    rw [raw]
    exact ⟨packed_lt myLcBound (.inr ⟨rfl, by omega⟩), packed_lt inLcBound (.inl behind)⟩
  · -- the same physical time: the larger counter is bumped
    next order =>
    have same := Nat.compare_eq_eq.mp order
    obtain ⟨-, raw⟩ := UniqueTimestamp.tryFromParts_raw (Option.some.inj fn)
    rw [raw, same]
    exact ⟨packed_lt myLcBound (.inr ⟨rfl, by omega⟩), packed_lt inLcBound (.inr ⟨rfl, by omega⟩)⟩

theorem tryUpdate_error {clock next : HlcClock} {recent : Nat} {incoming : UniqueTimestamp}
    {e : ClockError} (rejected : clock.tryUpdate recent incoming = some (next, .error e)) :
    next = clock := by
  unfold HlcClock.tryUpdate at rejected
  exact updateState_error rejected

end HlcClock

namespace HlcCall

theorem apply_advances {clock next : HlcClock} {call : HlcCall}
    {returned : Option UniqueTimestamp} (applied : call.apply clock = some (next, returned)) :
    (∀ timestamp ∈ returned, clock.state < timestamp ∧ next.state = timestamp) ∧
      (returned = none → next = clock) := by
  cases call with
  | next recent =>
    obtain ⟨⟨next', timestamp⟩, advanced, stored⟩ := Option.map_eq_some_iff.mp applied
    cases stored
    obtain ⟨above, rfl⟩ := HlcClock.next_advances advanced
    exact ⟨fun _ isReturned => by cases isReturned; exact ⟨above, rfl⟩, fun isNone => by cases isNone⟩
  | tryUpdate recent incoming =>
    obtain ⟨⟨next', result⟩, updated, stored⟩ := Option.map_eq_some_iff.mp applied
    cases result with
    | ok timestamp =>
      cases stored
      obtain ⟨above, -, rfl⟩ := HlcClock.tryUpdate_advances updated
      exact ⟨fun _ isReturned => by cases isReturned; exact ⟨above, rfl⟩, fun isNone => by cases isNone⟩
    | error e =>
      cases stored
      exact ⟨fun _ isReturned => (by cases isReturned), fun _ => HlcClock.tryUpdate_error updated⟩

theorem run_increasing : ∀ (calls : List HlcCall) {clock final : HlcClock}
    {returned : List UniqueTimestamp}, run calls clock = some (final, returned) →
      (clock.state :: returned).Pairwise (· < ·) ∧
        final.state = (clock.state :: returned).getLast (List.cons_ne_nil _ _)
  | [], clock, final, returned, ran => by
    cases ran
    exact ⟨List.pairwise_singleton _ _, rfl⟩
  | call :: calls, clock, final, returned, ran => by
    simp only [run, Option.bind_eq_bind, Option.bind_eq_some_iff, Option.pure_def,
      Option.some.injEq] at ran
    obtain ⟨⟨next, first⟩, applied, ⟨final', later⟩, rest, stored⟩ := ran
    cases stored
    obtain ⟨increasing, atEnd⟩ := run_increasing calls rest
    obtain ⟨advanced, unchanged⟩ := apply_advances applied
    cases first with
    | none =>
      cases unchanged rfl
      exact ⟨increasing, atEnd⟩
    | some timestamp =>
      obtain ⟨above, rfl⟩ := advanced timestamp rfl
      refine ⟨?_, atEnd⟩
      refine List.Pairwise.cons (fun later' isLater => ?_) increasing
      rcases List.mem_cons.mp isLater with rfl | isLater
      · exact above
      · exact lt_trans above (List.rel_of_pairwise_cons increasing isLater)

end HlcCall

/-- Over every run of local and remote updates with arbitrary physical readings that does not
panic, the stored and returned timestamps strictly increase; a successful remote update returns
a timestamp above the incoming one, and a rejected one leaves the clock as it was. -/
theorem hlc_monotonic_causal :
    (∀ (calls : List HlcCall) (clock final : HlcClock) (returned : List UniqueTimestamp),
      HlcCall.run calls clock = some (final, returned) →
        (clock.state :: returned).Pairwise (· < ·) ∧
          final.state = (clock.state :: returned).getLast (List.cons_ne_nil _ _)) ∧
    (∀ (clock next : HlcClock) (recent : Nat) (incoming timestamp : UniqueTimestamp),
      clock.tryUpdate recent incoming = some (next, .ok timestamp) → incoming < timestamp) ∧
    (∀ (clock next : HlcClock) (recent : Nat) (incoming : UniqueTimestamp) (e : ClockError),
      clock.tryUpdate recent incoming = some (next, .error e) → next = clock) :=
  ⟨fun calls _ _ _ ran => HlcCall.run_increasing calls ran,
    fun _ _ _ _ _ updated => (HlcClock.tryUpdate_advances updated).2.1,
    fun _ _ _ _ _ rejected => HlcClock.tryUpdate_error rejected⟩

/-- A local event, a remote timestamp ahead of the clock, then a physical clock gone backwards. -/
def sampleCalls : List HlcCall :=
  [.next (restateEpoch + 1000), .tryUpdate (restateEpoch + 1000) (.new (1100 * 2 ^ 22 + 2)),
    .next (restateEpoch + 900)]

def sampleClock : HlcClock := ⟨.new (1000 * 2 ^ 22), some 5000⟩

theorem sampleCalls_increase :
    HlcCall.run sampleCalls sampleClock = some (⟨.new (1100 * 2 ^ 22 + 4), some 5000⟩,
        [.new (1000 * 2 ^ 22 + 1), .new (1100 * 2 ^ 22 + 3), .new (1100 * 2 ^ 22 + 4)]) ∧
      [sampleClock.state, .new (1000 * 2 ^ 22 + 1), .new (1100 * 2 ^ 22 + 3), .new (1100 * 2 ^ 22 + 4)].Pairwise
        (· < ·) :=
  have ran : HlcCall.run sampleCalls sampleClock = some (⟨.new (1100 * 2 ^ 22 + 4), some 5000⟩,
      [.new (1000 * 2 ^ 22 + 1), .new (1100 * 2 ^ 22 + 3), .new (1100 * 2 ^ 22 + 4)]) := by rfl
  ⟨ran, (hlc_monotonic_causal.1 _ _ _ _ ran).1⟩

end Restate

import Restate.Journal.UnresolvedFuture
import Mathlib.Data.List.AList

/-! What an awaited future means to the SDK, as the comments of CombinatorType describe it, over
the order in which notifications arrive: a leaf settles when its notification arrives, with the
notification's outcome; FirstCompleted settles with the child that settles first (Promise.race);
Unknown settles, undetermined, as soon as any child does; AllCompleted once every child settled
(Promise.allSettled); FirstSucceededOrAllFailed and AllSucceededOrFirstFailed as Promise.any and
Promise.all. An undetermined outcome under the last two forces a wake-up, and a forced wake-up
settles every combinator above it. Of children that settle at the same arrival, the first in
order counts.

`settle` gives the arrival at which a future settles, counted from one, and how. -/

namespace Restate

inductive Outcome
  | success
  | failure
  | undetermined
  deriving DecidableEq, Repr

inductive Verdict
  | completed (outcome : Outcome)
  | forced
  deriving DecidableEq, Repr

def Outcome.ofVariant (variant : RawNotificationResultVariant) : Outcome :=
  if variant.isSuccess then .success
  else if variant.isUnknown then .undetermined
  else .failure

/-- The arrival of a notification: its position, counted from one, and its result variant. -/
def arrivalOf (id : NotificationId) : List RawNotification → Option (Nat × RawNotificationResultVariant)
  | [] => none
  | notification :: rest =>
    if notification.id = id then some (1, notification.resultVariant)
    else (arrivalOf id rest).map fun (time, variant) => (time + 1, variant)

/-- The earliest of some settlements; the first in order among equally early ones. -/
def earliest : List (Nat × Verdict) → Option (Nat × Verdict)
  | [] => none
  | event :: rest =>
    match earliest rest with
    | some later => if later.1 < event.1 then some later else some event
    | none => some event

/-- A combinator settles at the earliest child verdict that decides it, or else, once every child
settled, at the last of them with the verdict for all settled (if it has one). -/
def settleCombinator (decisive : Verdict → Option Verdict) (whenAllSettled : Option Verdict)
    (children : List (Option (Nat × Verdict))) : Option (Nat × Verdict) :=
  let decided := children.filterMap fun child =>
    child.bind fun (time, verdict) => (decisive verdict).map fun verdict => (time, verdict)
  match earliest decided with
  | some event => some event
  | none =>
    if children.all Option.isSome then
      whenAllSettled.map fun verdict => ((children.filterMap id).foldl (fun last event => max last event.1) 0, verdict)
    else none

def raceRule : Verdict → Option Verdict := some

def unknownRule : Verdict → Option Verdict
  | .forced => some .forced
  | .completed _ => some (.completed .undetermined)

def allSettledRule : Verdict → Option Verdict
  | .forced => some .forced
  | .completed _ => none

def anyRule : Verdict → Option Verdict
  | .completed .success => some (.completed .success)
  | .completed .failure => none
  | .completed .undetermined | .forced => some .forced

def allRule : Verdict → Option Verdict
  | .completed .success => none
  | .completed .failure => some (.completed .failure)
  | .completed .undetermined | .forced => some .forced

mutual

def settle (arrivals : List RawNotification) : UnresolvedFuture → Option (Nat × Verdict)
  | .single id => (arrivalOf id arrivals).map fun (time, variant) => (time, .completed (.ofVariant variant))
  | .firstCompleted futures => settleCombinator raceRule none (settleEach arrivals futures)
  | .unknown futures => settleCombinator unknownRule none (settleEach arrivals futures)
  | .allCompleted futures =>
    settleCombinator allSettledRule (some (.completed .success)) (settleEach arrivals futures)
  | .firstSucceededOrAllFailed futures =>
    settleCombinator anyRule (some (.completed .failure)) (settleEach arrivals futures)
  | .allSucceededOrFirstFailed futures =>
    settleCombinator allRule (some (.completed .success)) (settleEach arrivals futures)

def settleEach (arrivals : List RawNotification) :
    List UnresolvedFuture → List (Option (Nat × Verdict))
  | [] => []
  | fut :: rest => settle arrivals fut :: settleEach arrivals rest

end

/-- The SDK would resume the invocation once these notifications arrived. -/
def Settles (future : UnresolvedFuture) (arrivals : List RawNotification) : Prop :=
  (settle arrivals future).isSome = true

instance (future : UnresolvedFuture) (arrivals : List RawNotification) :
    Decidable (Settles future arrivals) :=
  inferInstanceAs (Decidable (_ = true))

/-- The map of the notifications stored for an invocation, as OnSuspendCommand collects it. -/
def storedNotifications (arrivals : List RawNotification) : KeyMap NotificationId RawNotificationResultVariant :=
  (arrivals.map fun notification => (⟨notification.id, notification.resultVariant⟩ :
    Sigma fun _ : NotificationId => RawNotificationResultVariant)).toAList

/-- `all([race([1, 2]), 3])`, awaited by an invocation that suspends. -/
def raceUnderAll : UnresolvedFuture :=
  .allSucceededOrFirstFailed
    [.firstCompleted [.single (.completionId 1), .single (.completionId 2)], .single (.completionId 3)]

/-- Notification 2 fails, then notification 1 succeeds, both before the suspension is applied. -/
def failureThenSuccess : List RawNotification :=
  [⟨.completionId 2, .failure⟩, ⟨.completionId 1, .value⟩]

/-- The race settles with the failure that arrived first, so Promise.all fails and the SDK would
resume; resolving with the map of both notifications takes the race's result from its first
child instead, drops the race as a success and keeps the invocation suspended on notification 3. -/
theorem raceUnderAll_stays_suspended :
    Settles raceUnderAll failureThenSuccess ∧
      (raceUnderAll.resolve (mapLookup (storedNotifications failureThenSuccess))).1 = false := by
  decide

end Restate

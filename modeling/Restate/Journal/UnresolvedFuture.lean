import Restate.Lib.KeyMap
import Restate.Storage.KeyCodec

/-! The future an invocation awaits when it suspends, from journal_v2/unresolved_future.rs, and
`resolve`, which decides from the notifications known so far whether the invocation can resume.
Leaves name notifications; combinators compose children. `resolve_inner` evaluates the tree and
prunes it in place: AllCompleted, FirstSucceededOrAllFailed and AllSucceededOrFirstFailed drop
children that completed in a way that does not decide them, with `swap_remove`, so the loop at
position `i` next visits the child that was last. An undetermined child of the last two stops the
evaluation with `Indeterminable`, and `resolve` then answers that the invocation resumes.

Resolving a child mutates only that child, so a loop is given every child with its resolution
(`resolveEach`) and reads the one at the position it visits; children it does not reach stay as
they were. -/

namespace Restate

inductive RawNotificationResultVariant
  | unknown
  | void
  | value
  | failure
  | invocationId
  | stateKeys
  deriving DecidableEq, Repr

def RawNotificationResultVariant.isUnknown : RawNotificationResultVariant → Bool
  | unknown => true
  | _ => false

def RawNotificationResultVariant.isSuccess : RawNotificationResultVariant → Bool
  | void | value | invocationId | stateKeys => true
  | _ => false

structure RawNotification where
  id : NotificationId
  resultVariant : RawNotificationResultVariant
  deriving DecidableEq, Repr

inductive UnresolvedFuture
  | single (id : NotificationId)
  | firstCompleted (futures : List UnresolvedFuture)
  | allCompleted (futures : List UnresolvedFuture)
  | firstSucceededOrAllFailed (futures : List UnresolvedFuture)
  | allSucceededOrFirstFailed (futures : List UnresolvedFuture)
  | unknown (futures : List UnresolvedFuture)
  deriving Repr

inductive ResolveResult
  | pending
  | successOrFailure
  | success
  | failure
  deriving DecidableEq, Repr

def ResolveResult.isCompleted (result : ResolveResult) : Bool := result != .pending

def ResolveResult.ofVariant (variant : RawNotificationResultVariant) : ResolveResult :=
  if variant.isSuccess then .success
  else if variant.isUnknown then .successOrFailure
  else .failure

structure Indeterminable
  deriving DecidableEq, Repr

/-- The NotificationResultVariantLookup trait: the result variant of a notification, if known. -/
abbrev NotificationResultVariantLookup := NotificationId → Option RawNotificationResultVariant

/-- The lookup in the map of the notifications stored for an invocation. -/
def mapLookup (notifications : KeyMap NotificationId RawNotificationResultVariant) :
    NotificationResultVariantLookup :=
  fun id => notifications.lookup id

/-- The lookup in a single notification. -/
def rawNotificationLookup (notification : RawNotification) : NotificationResultVariantLookup :=
  fun id => if id = notification.id then some notification.resultVariant else none

/-- What resolve_inner returns, with the tree as it leaves it (also when it stops early). -/
abbrev Resolution := Except Indeterminable ResolveResult × UnresolvedFuture

/-- What the while loops of the pruning combinators do with the result of the child at `i`. -/
inductive LoopStep
  | remove
  | keep
  | finish (result : ResolveResult)
  | indeterminable
  deriving DecidableEq, Repr

/-- The list after `swap_remove` of its first element, given what follows it. -/
def swapRemoveRest (rest : List α) : List α :=
  match rest.getLast? with
  | some last => last :: rest.dropLast
  | none => []

/-- The while loop of AllCompleted, FirstSucceededOrAllFailed and AllSucceededOrFirstFailed,
at position `kept.length` of `kept ++ unvisited`: the children before it were visited and kept,
those from it on are unvisited, each with its resolution. It returns the early result, if any,
and the children as the loop leaves them. The fuel is the number of children, one per visit. -/
def swapRemoveLoop (step : ResolveResult → LoopStep) :
    (fuel : Nat) → (kept : List UnresolvedFuture) → (unvisited : List (UnresolvedFuture × Resolution)) →
      Except Indeterminable (Option ResolveResult) × List UnresolvedFuture
  | 0, kept, unvisited => (.ok none, kept ++ unvisited.map Prod.fst)
  | _ + 1, kept, [] => (.ok none, kept)
  | fuel + 1, kept, (_, (outcome, child)) :: rest =>
    match outcome with
    | .error indeterminable => (.error indeterminable, kept ++ child :: rest.map Prod.fst)
    | .ok result =>
      match step result with
      | .remove => swapRemoveLoop step fuel kept (swapRemoveRest rest)
      | .keep => swapRemoveLoop step fuel (kept ++ [child]) rest
      | .finish result => (.ok (some result), kept ++ child :: rest.map Prod.fst)
      | .indeterminable => (.error ⟨⟩, kept ++ child :: rest.map Prod.fst)

/-- AllCompleted: every completed child is removed. -/
def allCompletedStep (result : ResolveResult) : LoopStep :=
  if result.isCompleted then .remove else .keep

/-- FirstSucceededOrAllFailed: a success decides, a failure is removed. -/
def firstSucceededOrAllFailedStep : ResolveResult → LoopStep
  | .success => .finish .success
  | .failure => .remove
  | .pending => .keep
  | .successOrFailure => .indeterminable

/-- AllSucceededOrFirstFailed: a failure decides, a success is removed. -/
def allSucceededOrFirstFailedStep : ResolveResult → LoopStep
  | .success => .remove
  | .failure => .finish .failure
  | .pending => .keep
  | .successOrFailure => .indeterminable

/-- The result of a pruning combinator: the early one, or else the one for no children left. -/
def loopResult (whenEmpty : ResolveResult) (futures : List UnresolvedFuture)
    (outcome : Except Indeterminable (Option ResolveResult)) : Except Indeterminable ResolveResult :=
  outcome.map fun returned => returned.getD (if futures.isEmpty then whenEmpty else .pending)

mutual

def resolveInner (lookup : NotificationResultVariantLookup) : UnresolvedFuture → Resolution
  | .single inner => (.ok ((lookup inner).elim .pending ResolveResult.ofVariant), .single inner)
  | .unknown futures =>
    let (outcome, futures) := resolveFirstCompleted lookup futures
    (outcome.map fun result => if result.isCompleted then .successOrFailure else .pending,
      .unknown futures)
  | .firstCompleted futures =>
    let (outcome, futures) := resolveFirstCompleted lookup futures
    (outcome, .firstCompleted futures)
  | .allCompleted futures =>
    let (outcome, futures) :=
      swapRemoveLoop allCompletedStep futures.length [] (resolveEach lookup futures)
    (loopResult .success futures outcome, .allCompleted futures)
  | .firstSucceededOrAllFailed futures =>
    let (outcome, futures) :=
      swapRemoveLoop firstSucceededOrAllFailedStep futures.length [] (resolveEach lookup futures)
    (loopResult .failure futures outcome, .firstSucceededOrAllFailed futures)
  | .allSucceededOrFirstFailed futures =>
    let (outcome, futures) :=
      swapRemoveLoop allSucceededOrFirstFailedStep futures.length [] (resolveEach lookup futures)
    (loopResult .success futures outcome, .allSucceededOrFirstFailed futures)

/-- The for loop of Unknown and FirstCompleted: children in order until one completes. -/
def resolveFirstCompleted (lookup : NotificationResultVariantLookup) :
    List UnresolvedFuture → Except Indeterminable ResolveResult × List UnresolvedFuture
  | [] => (.ok .pending, [])
  | fut :: rest =>
    match resolveInner lookup fut with
    | (.error indeterminable, fut) => (.error indeterminable, fut :: rest)
    | (.ok result, fut) =>
      if result.isCompleted then (.ok result, fut :: rest)
      else
        let (outcome, rest) := resolveFirstCompleted lookup rest
        (outcome, fut :: rest)

/-- Every child with its resolution. -/
def resolveEach (lookup : NotificationResultVariantLookup) :
    List UnresolvedFuture → List (UnresolvedFuture × Resolution)
  | [] => []
  | fut :: rest => (fut, resolveInner lookup fut) :: resolveEach lookup rest

end

/-- resolve: whether the invocation can resume, and the pruned tree. A stop on an undetermined
outcome counts as a success. -/
def UnresolvedFuture.resolve (future : UnresolvedFuture) (lookup : NotificationResultVariantLookup) :
    Bool × UnresolvedFuture :=
  let (outcome, future) := resolveInner lookup future
  ((outcome.toOption.getD .success).isCompleted, future)

end Restate

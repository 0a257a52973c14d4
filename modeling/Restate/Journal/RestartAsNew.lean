import Mathlib.Data.Finset.Basic
import Restate.Storage.KeyCodec

/-! Restarting a completed invocation as a new one (partition/state_machine/lifecycle/restart_as_new.rs)
and the check its RPC handler makes first (partition/rpc/restart_as_new_invocation.rs). The state
machine copies the journal up to the requested index, collecting the completions the copied commands
wait for and striking those that come in the prefix, then copies from the rest of the journal the
first notification of each completion still missing, stopping once none is. An entry is what the copy
reads of it, the completion ids of a command and the id of a notification, with the rest of the entry
as a payload it moves unchanged. -/

namespace Restate

abbrev CompletionId := BitVec 32

inductive JournalEntry (α : Type)
  | command (relatedCompletionIds : List CompletionId) (payload : α)
  | notification (id : NotificationId) (payload : α)
  deriving DecidableEq

namespace JournalEntry

variable {α : Type}

def relatedCompletionIds : JournalEntry α → List CompletionId
  | .command ids _ => ids
  | .notification .. => []

def isCommand : JournalEntry α → Bool
  | .command .. => true
  | .notification .. => false

/-- The completion a notification carries. -/
def completionId? : JournalEntry α → Option CompletionId
  | .notification (.completionId id) _ => some id
  | _ => none

@[simp] theorem completionId?_command (ids : List CompletionId) (payload : α) :
    (command ids payload).completionId? = none := rfl

@[simp] theorem completionId?_completion (id : CompletionId) (payload : α) :
    (notification (.completionId id) payload).completionId? = some id := rfl

@[simp] theorem completionId?_signalIndex (index : BitVec 32) (payload : α) :
    (notification (.signalIndex index) payload).completionId? = none := rfl

@[simp] theorem completionId?_signalName (name : String) (payload : α) :
    (notification (.signalName name) payload).completionId? = none := rfl

end JournalEntry

inductive InvocationStatus (α : Type)
  | free
  | scheduled
  | inboxed
  | invoked
  | suspended
  | paused
  | completed (journal : List (JournalEntry α)) (randomSeed : Option UInt64)

inductive RestartAsNewInvocationResponse
  | ok
  | notFound
  | notStarted
  | stillRunning
  | journalIndexOutOfRange
  deriving DecidableEq, Repr

/-- What the copy has written to the new journal, the commands among it, and the completions the
copied commands still miss. -/
structure CopyState (α : Type) where
  written : List (JournalEntry α)
  commands : Nat
  missingCompletions : Finset CompletionId

/-- The new journal as the pre-flight invocation receives it. -/
structure NewJournal (α : Type) where
  entries : List (JournalEntry α)
  length : Nat
  commands : Nat
  randomSeed : Option UInt64

namespace RestartAsNew

variable {α : Type}

/-- One entry of the prefix: copied, a command adding its completions to the missing ones, a
completion notification striking its own. -/
def copyPrefixStep (state : CopyState α) (entry : JournalEntry α) : CopyState α :=
  match entry with
  | .command relatedCompletionIds _ =>
    { written := state.written ++ [entry]
      commands := state.commands + 1
      missingCompletions := relatedCompletionIds.foldl (fun missing id => insert id missing) state.missingCompletions }
  | .notification id _ =>
    { state with
      written := state.written ++ [entry]
      missingCompletions :=
        match id with
        | .completionId completionId => state.missingCompletions.erase completionId
        | _ => state.missingCompletions }

/-- The second loop, over the entries after the prefix: a notification of a missing completion is
copied and struck, and the loop stops once no completion is missing. -/
def copyMissing : List (JournalEntry α) → CopyState α → CopyState α
  | [], state => state
  | entry :: rest, state =>
    let state :=
      match entry.completionId? with
      | some completionId =>
        if completionId ∈ state.missingCompletions then
          { state with
            written := state.written ++ [entry]
            missingCompletions := state.missingCompletions.erase completionId }
        else state
      | none => state
    if state.missingCompletions = ∅ then state else copyMissing rest state

end RestartAsNew

open RestartAsNew in
/-- `OnRestartAsNewInvocationCommand::apply`: the reply, and the new journal it starts the new
invocation with. `uniqueRandomSeeds` is the feature flag and `newRandomSeed` the seed derived from the
new invocation id. -/
def restartAsNew {α : Type} (status : InvocationStatus α) (copyPrefixUpToIndexIncluded : Nat)
    (uniqueRandomSeeds : Bool) (newRandomSeed : UInt64) : RestartAsNewInvocationResponse × Option (NewJournal α) :=
  match status with
  | .free => (.notFound, none)
  | .scheduled | .inboxed => (.notStarted, none)
  | .invoked | .suspended | .paused => (.stillRunning, none)
  | .completed journal randomSeed =>
    if journal.length ≤ copyPrefixUpToIndexIncluded then (.journalIndexOutOfRange, none)
    else
      let copied := (journal.take (copyPrefixUpToIndexIncluded + 1)).foldl copyPrefixStep ⟨[], 0, ∅⟩
      let copied := copyMissing (journal.drop (copyPrefixUpToIndexIncluded + 1)) copied
      let randomSeed :=
        if 0 < copyPrefixUpToIndexIncluded then randomSeed
        else if uniqueRandomSeeds then some newRandomSeed else randomSeed
      (.ok, some ⟨copied.written, copied.written.length, copied.commands, randomSeed⟩)

/-- The RPC handler's check, over the indices `1..=copyPrefixUpToIndexIncluded`: every command there
has each of its completions in the journal, and an index with no entry fails it. -/
def prefixCompletionsPresent {α : Type} (journal : List (JournalEntry α)) (copyPrefixUpToIndexIncluded : Nat) : Bool :=
  (List.range' 1 copyPrefixUpToIndexIncluded).all fun i =>
    match journal[i]? with
    | some entry =>
      entry.relatedCompletionIds.all fun completionId => journal.any fun other => other.completionId? == some completionId
    | none => false

end Restate

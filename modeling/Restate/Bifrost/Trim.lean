import Restate.Logs.FindSegment
import Restate.LogServer.LogletWorker

/-! Trimming a log in bifrost (bifrost.rs, loglet_wrapper.rs, types.rs): `Bifrost::trim` asks each
segment of the chain at or below the trim point to trim, `LogletWrapper::trim` turns the LSN into an
offset of the segment's loglet, and `Bifrost::get_trim_point` reads the loglets' trim points back as
LSNs, up to the first segment that has none. A loglet is its trim point and the offset of its last
committed record, and trims as the contract of `Loglet::trim` states. A panic gives `none`. -/

namespace Restate

def Lsn.maxValue : Nat := 2 ^ 64 - 1

/-- `Lsn::prev`, saturating at zero. -/
def Lsn.prev (lsn : Lsn) : Lsn := ⟨lsn.val - 1⟩

namespace LsnExt

/-- `offset_by`: the LSN of a loglet offset in the segment at `base`. -/
def offsetBy (base : Lsn) (offset : Nat) : Option Lsn :=
  if offset < LogletOffset.oldest then none
  else if base.val + (offset - LogletOffset.oldest) ≤ Lsn.maxValue then some ⟨base.val + (offset - LogletOffset.oldest)⟩
  else none

/-- `into_offset`: the loglet offset of an LSN in the segment at `base`. -/
def intoOffset (lsn base : Lsn) : Option Nat :=
  if base.val ≤ Lsn.invalid.val ∨ lsn.val < base.val then none
  else
    let offset := lsn.val - base.val + LogletOffset.oldest
    if offset ≤ Lsn.maxValue ∧ offset ≤ LogletOffset.maxValue then some offset else none

end LsnExt

/-- A loglet as trimming sees it: its trim point, if it was ever trimmed, and the offset of its last
committed record, `INVALID` while it has none. -/
structure LogletTrim where
  trimPoint : Option Nat
  lastCommitted : Nat
  deriving DecidableEq, Repr

/-- `Loglet::trim` by its contract: up to the requested offset and at most to the last committed
record, never back; `INVALID` changes nothing. -/
def LogletTrim.trim (loglet : LogletTrim) (requested : Nat) : LogletTrim :=
  let point := max (loglet.trimPoint.getD LogletOffset.invalid) (min requested loglet.lastCommitted)
  if point = LogletOffset.invalid then loglet else { loglet with trimPoint := some point }

structure LogletWrapper where
  segment : Segment
  loglet : LogletTrim
  deriving DecidableEq, Repr

namespace LogletWrapper

/-- `LogletWrapper::get_trim_point`: the loglet's trim point as an LSN, below the tail of a sealed
segment. -/
def getTrimPoint (wrapper : LogletWrapper) : Option (Option Lsn) :=
  match wrapper.loglet.trimPoint with
  | none => some none
  | some offset =>
    (LsnExt.offsetBy wrapper.segment.baseLsn offset).map fun actualTrimPoint =>
      match wrapper.segment.tailLsn with
      | some tail => some (min actualTrimPoint tail.prev)
      | none => some actualTrimPoint

/-- `LogletWrapper::trim`: the wrapper after the call. -/
def trim (wrapper : LogletWrapper) (trimPoint : Lsn) : Option LogletWrapper :=
  if trimPoint = Lsn.invalid then some wrapper
  else
    -- saturate to the loglet max possible offset
    let trimPoint := min trimPoint ⟨LogletOffset.maxValue⟩
    (LsnExt.intoOffset trimPoint wrapper.segment.baseLsn).map fun offset =>
      { wrapper with loglet := wrapper.loglet.trim offset }

end LogletWrapper

namespace Bifrost

/-- The segments of a chain, each with its loglet, as `get_loglet` gives them. -/
def wrappers (chain : Chain) (loglets : Segment → LogletTrim) : List LogletWrapper :=
  chain.iter.map fun segment => ⟨segment, loglets segment⟩

/-- `Bifrost::trim`: the segments after the call; it stops at the first segment above the trim
point. -/
def trim : List LogletWrapper → Lsn → Option (List LogletWrapper)
  | [], _ => some []
  | wrapper :: rest, trimPoint =>
    if trimPoint < wrapper.segment.baseLsn then some (wrapper :: rest)
    else do
      let trimmed ← wrapper.trim trimPoint
      let rest ← trim rest trimPoint
      some (trimmed :: rest)

/-- The loop of `Bifrost::get_trim_point`: the last trim point before the first segment without one. -/
def trimPointLoop : List LogletWrapper → Option Lsn → Option (Option Lsn)
  | [], trimPoint => some trimPoint
  | wrapper :: rest, trimPoint =>
    (wrapper.getTrimPoint).bind fun
      | none => some trimPoint
      | some point => trimPointLoop rest (some point)

def getTrimPoint (wrappers : List LogletWrapper) : Option Lsn :=
  (trimPointLoop wrappers none).map fun trimPoint => trimPoint.getD Lsn.invalid

end Bifrost

end Restate

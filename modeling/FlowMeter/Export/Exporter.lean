import FlowMeter.Export.Backlog
import FlowMeter.Export.Dedup
import FlowMeter.Settings
/-!
# The exporter

The last stage: overflow records wait in the backlog, shards come in when they are emptied, and what leaves is deduplicated
and shown line by line.
-/
namespace FlowMeter.Export

namespace Dedup

/-- What there is to tell when the expired owners are forgotten. -/
def sweepNotices (d : Dedup) (now : Instant) : List Notice :=
  let remaining := (d.sweep now).owners.size
  if remaining < d.owners.size then [.ownersExpired (d.owners.size - remaining) remaining] else []

/-- The reports of one period, with what there is to tell. -/
def passLogged (d : Dedup) (now : Instant) (reports : List Report) : Logged TimeFault (Dedup × List Report) := do
  Logged.tell (d.sweepNotices now)
  Logged.ofExcept (d.pass now reports)

end Dedup

structure Exporter where
  backlog : Backlog
  dedup : Option Dedup

namespace Exporter

def ofSettings (s : Settings) : Exporter where
  backlog := { limit := s.meter.capacity.toNat }
  dedup :=
    match s.dedup with
    | .off => none
    | .firstCome => some { expiry := s.dedupExpiry, mark := s.dedupMark }

/-- Deduplicates reports and shows those that are left. -/
def release (x : Exporter) (now : Instant) (reports : List Report) : Logged TimeFault (Exporter × List Report) := do
  let (x, kept) ←
    match x.dedup with
    | none => pure (x, reports)
    | some d => do
      let (d, kept) ← d.passLogged now reports
      pure ({ x with dedup := some d }, kept)
  Logged.tell (kept.map .exported)
  return (x, kept)

def evict (x : Exporter) (place : Place) (now : Instant) (snapshot : Flow.Merged) :
    Logged TimeFault (Exporter × List Report) := do
  let (backlog, reports) ← Logged.ofExcept (x.backlog.evict place snapshot)
  release { x with backlog } now reports

/-- Takes an overflow record; what it makes the backlog give up is exported. -/
def account (x : Exporter) (place : Place) (now : Instant) (r : Flow.Record) :
    Logged TimeFault (Exporter × List Report) := do
  let (backlog, reports) ← x.backlog.account place r
  match reports with
  | some reports => release { x with backlog } now reports
  | none => return ({ x with backlog }, [])

end Exporter
end FlowMeter.Export

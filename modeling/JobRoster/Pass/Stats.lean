/-!
# Counters of a pass

What a pass saw: the declarations it was offered, the candidates among them, and what became of
each.
-/

namespace JobRoster

structure Stats where
  scanned : Nat
  candidates : Nat
  records : Nat
  skipped : Nat
  diagnostics : Nat
deriving DecidableEq, Repr

def Stats.text (stats : Stats) : String :=
  s!"{stats.scanned} declarations, {stats.candidates} candidates, {stats.records} records, " ++
    s!"{stats.skipped} skipped, {stats.diagnostics} diagnostics"

end JobRoster

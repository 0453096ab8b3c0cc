import PageServer.Metrics.Counters

/-!
# Reports

The summary of the counters as indented JSON text.
-/

namespace PageServer
namespace Metrics

/-- Fields of an object whose closing brace stands at `indent`. -/
def objectText (indent : String) (fields : List (String × String)) : String :=
  if fields.isEmpty then "\x7b\x7d"
  else
    let lines := fields.map fun f => s!"{indent}  \"{f.1}\": {f.2}"
    "\x7b\n" ++ ",\n".intercalate lines ++ "\n" ++ indent ++ "\x7d"

def LatencySummary.report (s : LatencySummary) : String :=
  objectText "  " [("p50", s!"{s.p50}"), ("p95", s!"{s.p95}"), ("p99", s!"{s.p99}"),
    ("avg", s!"{s.average}"), ("samples", s!"{s.samples}")]

def Snapshot.report (s : Snapshot) : String :=
  objectText "" [
    ("accepted", s!"{s.accepted}"),
    ("busy_rejections", s!"{s.busy}"),
    ("closed", s!"{s.closed}"),
    ("idle_evictions", s!"{s.idleEvictions}"),
    ("queue_rejections", s!"{s.queueRejections}"),
    ("responses", s!"{s.responses}"),
    ("status_codes", objectText "  " (s.statusCodes.map fun c => (s!"{c.1}", s!"{c.2}"))),
    ("bytes_sent", s!"{s.bytesSent}"),
    ("latency_us", s.latency.report)]

end Metrics
end PageServer

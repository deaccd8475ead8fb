import QueryBuilder.Duration

/-!
What a monitored client is set to: its time limit, what counts as slow, and how much SQL it logs.
-/

set_option autoImplicit false

namespace QueryBuilder

structure MonitorConfig where
  timeout : Option Duration
  slowThreshold : Option Duration
  maxSqlLength : Nat
  logging : Bool
deriving DecidableEq, Repr

namespace MonitorConfig

-- No time limit, nothing counts as slow, and 1024 bytes of each statement are logged.
def standard : MonitorConfig :=
  ⟨none, none, 1024, true⟩

inductive Setting where
  | timeout (limit : Duration)
  | slow (threshold : Duration)
  | maxSqlLength (bytes : Nat)
  | logging (on : Bool)
deriving DecidableEq, Repr

def apply (c : MonitorConfig) : Setting → MonitorConfig
  | .timeout limit => { c with timeout := some limit }
  | .slow threshold => { c with slowThreshold := some threshold }
  | .maxSqlLength bytes => { c with maxSqlLength := bytes }
  | .logging on => { c with logging := on }

end MonitorConfig

end QueryBuilder

/-
Counters and gauges, and their exposition.

A series comes into being when it is first touched. `samples` writes each series on a line of its own, sorted; in label
values the backslash, the quotation mark and the line feed are escaped. `exposition` puts the samples of one name
together. Counters have 64 bits. Gauges are doubles.
-/
import ChainBridge.Decimal.Shortest
import ChainBridge.Rpc.Error

namespace ChainBridge.Metrics

inductive Counter where
  /-- questions to the node, by how they ended -/
  | rpcCalls (method : String) (failure : Option Rpc.ErrorKind)
  | cacheHits (cache : String)
  | cacheMisses (cache : String)
  /-- lookups that joined a fill in progress -/
  | cacheCoalesced (cache : String)
  | cacheEvictions (cache reason : String)
deriving DecidableEq, Repr

inductive Gauge where
  | cacheEntries (cache : String)
  | cacheOccupied (cache : String)
deriving DecidableEq, Repr

structure Registry where
  counters : List (Counter × Nat)
  gauges : List (Gauge × Nat)
deriving DecidableEq, Repr

namespace Registry

def empty : Registry := ⟨[], []⟩

/-- adds to the number that a key has, from zero -/
def bump (counter : Counter) (n : Nat) : List (Counter × Nat) → List (Counter × Nat)
  | [] => [(counter, n)]
  | (c, m) :: rest => if c = counter then (c, m + n) :: rest else (c, m) :: bump counter n rest

def place (gauge : Gauge) (n : Nat) : List (Gauge × Nat) → List (Gauge × Nat)
  | [] => [(gauge, n)]
  | (g, m) :: rest => if g = gauge then (g, n) :: rest else (g, m) :: place gauge n rest

def add (r : Registry) (counter : Counter) (n : Nat) : Registry := { r with counters := bump counter n r.counters }

def set (r : Registry) (gauge : Gauge) (n : Nat) : Registry := { r with gauges := place gauge n r.gauges }

/-- the count of a series, if it was touched -/
def count? (r : Registry) (counter : Counter) : Option Nat := r.counters.lookup counter

def count (r : Registry) (counter : Counter) : Nat := (r.count? counter).getD 0

def gauge? (r : Registry) (gauge : Gauge) : Option Nat := r.gauges.lookup gauge

/-! ## What is recorded -/

/-- a question to the node that ended, well or not -/
def rpcCall (r : Registry) (method : String) (failure : Option Rpc.ErrorKind) : Registry :=
  r.add (.rpcCalls method failure) 1

def hit (r : Registry) (cache : String) : Registry := r.add (.cacheHits cache) 1

def miss (r : Registry) (cache : String) : Registry := r.add (.cacheMisses cache) 1

def coalesced (r : Registry) (cache : String) : Registry := r.add (.cacheCoalesced cache) 1

/-- entries that were removed; none leaves the series untouched -/
def evicted (r : Registry) (cache reason : String) (n : Nat) : Registry :=
  if n = 0 then r else r.add (.cacheEvictions cache reason) n

def occupancy (r : Registry) (cache : String) (entries bytes : Nat) : Registry :=
  (r.set (.cacheEntries cache) entries).set (.cacheOccupied cache) bytes

end Registry

/-! ## Exposition -/

def escape (c : Char) : List Char :=
  if c = '\\' then ['\\', '\\']
  else if c = '"' then ['\\', '"']
  else if c = '\n' then ['\\', 'n']
  else [c]

def label (l : String × String) : String :=
  l.1 ++ "=\"" ++ String.ofList (l.2.toList.flatMap escape) ++ "\""

def series (name : String) (labels : List (String × String)) : String :=
  name ++ "\x7b" ++ ",".intercalate (labels.map label) ++ "\x7d"

def Counter.series : Counter → String
  | .rpcCalls method failure => Metrics.series "motif_rpc_calls_total"
      [("method", method), ("outcome", (failure.map Rpc.ErrorKind.label).getD "success")]
  | .cacheHits cache => Metrics.series "motif_cache_hits_total" [("cache", cache)]
  | .cacheMisses cache => Metrics.series "motif_cache_misses_total" [("cache", cache)]
  | .cacheCoalesced cache => Metrics.series "motif_cache_coalesced_total" [("cache", cache)]
  | .cacheEvictions cache reason => Metrics.series "motif_cache_evictions_total" [("cache", cache), ("reason", reason)]

def Gauge.series : Gauge → String
  | .cacheEntries cache => Metrics.series "motif_cache_entries" [("cache", cache)]
  | .cacheOccupied cache => Metrics.series "motif_cache_occupied_bytes" [("cache", cache)]

/-- the double nearest to a gauge, in positional digits -/
def gaugeText (n : Nat) : String :=
  match Decimal.Double.ofBits (Float.ofNat n).toBits with
  | .finite _ m q narrow => String.ofList (Decimal.positional [] (Decimal.shortest m q narrow))
  | _ => "0"

/-- inserts a line where it belongs -/
def insertLine (line : String) : List String → List String
  | [] => [line]
  | l :: rest => if line ≤ l then line :: l :: rest else l :: insertLine line rest

def sortLines (lines : List String) : List String := lines.foldr insertLine []

/-- every series with its number, sorted -/
def Registry.samples (r : Registry) : List String :=
  sortLines (r.counters.map (fun c => c.1.series ++ " " ++ toString (c.2 % 0x10000000000000000)) ++
    r.gauges.map fun g => g.1.series ++ " " ++ gaugeText g.2)

/-- the names of counters and gauges and what they are -/
def families : List (String × String) := [
  ("motif_cache_coalesced_total", "counter"), ("motif_cache_evictions_total", "counter"),
  ("motif_cache_hits_total", "counter"), ("motif_cache_misses_total", "counter"), ("motif_rpc_calls_total", "counter"),
  ("motif_cache_entries", "gauge"), ("motif_cache_occupied_bytes", "gauge")]

/-- the samples of each family that has any, behind a line about the family -/
def Registry.exposition (r : Registry) : List String :=
  families.flatMap fun f =>
    match r.samples.filter fun line => (f.1 ++ "\x7b").toList.isPrefixOf line.toList with
    | [] => []
    | lines => ("# TYPE " ++ f.1 ++ " " ++ f.2) :: lines ++ [""]

end ChainBridge.Metrics

import MidnightSdk.Library.FileTree
import MidnightSdk.Library.Json
import MidnightSdk.Production.Environment

/-!
# Snapshots of the local state

The fetch cache and the ledger state are copied into a directory and out of it
again. A path that leads to nothing is passed over, and a directory is copied into
what is already there.
-/

namespace MidnightSdk.Production

open FileTree Ledger

abbrev Path : Type := List String

abbrev Disk : Type := Tree String (List UInt8)

/-- What the operating system and the JSON library add: where the text of a path leads,
where relative paths begin, the text of a value and the text of an exception. -/
structure Platform where
  resolve : String → Path
  workingDirectory : Path
  dump : Json → List UInt8
  parse : List UInt8 → Option Json
  what : String

namespace LocalStateBackend

variable (platform : Platform)

def stripRedbPrefix (value : String) : String :=
  if "redb:".toList <+: value.toList then String.ofList (value.toList.drop 5) else value

/-- A path made from a text; the empty one leads nowhere. -/
def locate (text : String) : Option Path := if text = "" then none else some (platform.resolve text)

/-- `dir / name` -/
def child (dir : Option Path) (name : String) : Path :=
  dir.getD platform.workingDirectory ++ [name]

def fileBytes : Option (Entry (List UInt8)) → Nat
  | some (.file content) => content.length
  | _ => 0

def pathSize (disk : Disk) (path : Path) : UInt64 :=
  UInt64.ofNat (((disk.paths.dedup.filter (path <+: ·)).map fun p => fileBytes (disk.entry p)).sum)

def sourceModeToString : SourceMode → String
  | .localCache => "local-cache"
  | .coldSync => "cold-sync"
  | .bounded => "bounded"
  | .auto => "auto"

def sourceToJson (source : SourceConfig) : Json :=
  .ofFields [
    ("source_mode", .string (sourceModeToString source.sourceMode)),
    ("src_url", .string source.srcUrl),
    ("src_files", .array (source.srcFiles.map .string)),
    ("fetch_only_cached", .bool source.fetchOnlyCached),
    ("require_ledger_state_cache", .bool source.requireLedgerStateCache),
    ("ignore_block_context", .bool source.ignoreBlockContext),
    ("dust_warp", .bool source.dustWarp),
    ("fetch_cache", .string source.fetchCache),
    ("ledger_state_db", .string source.ledgerStateDb),
    ("fetch_concurrency", .unsigned source.fetchConcurrency.toUInt64),
    ("fetch_compute_concurrency",
      (source.fetchComputeConcurrency.map fun n => Json.unsigned n.toUInt64).getD .null),
    ("fetch_retry_count", .unsigned source.fetchRetryCount.toUInt64),
    ("fetch_retry_delay_ms", .unsigned source.fetchRetryDelayMs),
    ("from_block", (source.fromBlock.map Json.unsigned).getD .null),
    ("to_block", (source.toBlock.map Json.unsigned).getD .null),
    ("transaction_hashes", .array (source.transactionHashes.map fun h =>
      .string (String.ofList (h.map fun b => Char.ofNat b.toNat))))]

end LocalStateBackend

end MidnightSdk.Production

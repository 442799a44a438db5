import DirWatch.Change.Json
import DirWatch.Config.Basic

/-!
# Configuration in JSON

A configuration is an object with one object in it for each part. A text needs to name only what it
changes: every member that is left out keeps its default.
-/

namespace DirWatch

open Json

/-! ## Writing -/

def OutputFormat.label : OutputFormat → String
  | text => "text"
  | json => "json"

def MonitorConfig.json (c : MonitorConfig) : Value :=
  .object [
    ("buffer_size", .nat c.bufferSize.toNat),
    ("max_pending_changes", .nat c.maxPendingChanges.toNat),
    ("close_wait_ms", .nat c.closeWaitMs.toNat),
    ("include_subtree", .bool c.includeSubtree),
    ("filter", c.filter.json)]

def CliConfig.json (c : CliConfig) : Value :=
  .object [
    ("format", .string c.format.label),
    ("max_events", match c.maxEvents with
      | some n => .nat n.toNat
      | none => .null)]

def Config.json (c : Config) : Value :=
  .object [("monitor", c.monitor.json), ("cli", c.cli.json)]

def Config.write (c : Config) : String := String.ofList c.json.compact

/-! ## Reading -/

/-- The members of `MonitorConfig` that have been read. -/
structure MonitorConfig.Draft where
  bufferSize : Option UInt64 := none
  maxPendingChanges : Option UInt64 := none
  closeWaitMs : Option UInt64 := none
  includeSubtree : Option Bool := none
  filter : Option Filter := none

def MonitorConfig.Draft.fill (d : MonitorConfig.Draft) : MonitorConfig :=
  let standard : MonitorConfig := {}
  { bufferSize := d.bufferSize.getD standard.bufferSize
    maxPendingChanges := d.maxPendingChanges.getD standard.maxPendingChanges
    closeWaitMs := d.closeWaitMs.getD standard.closeWaitMs
    includeSubtree := d.includeSubtree.getD standard.includeSubtree
    filter := d.filter.getD standard.filter }

def MonitorConfig.shape : Shape MonitorConfig.Draft MonitorConfig where
  name := "MonitorConfig"
  members := [
    ⟨"buffer_size", fun d => d.bufferSize.isSome,
      (Reader.nat64 "usize").map fun n d => { d with bufferSize := some n }⟩,
    ⟨"max_pending_changes", fun d => d.maxPendingChanges.isSome,
      (Reader.nat64 "usize").map fun n d => { d with maxPendingChanges := some n }⟩,
    ⟨"close_wait_ms", fun d => d.closeWaitMs.isSome,
      (Reader.nat64 "u64").map fun n d => { d with closeWaitMs := some n }⟩,
    ⟨"include_subtree", fun d => d.includeSubtree.isSome,
      Reader.bool.map fun b d => { d with includeSubtree := some b }⟩,
    ⟨"filter", fun d => d.filter.isSome,
      Filter.reader.map fun f d => { d with filter := some f }⟩]
  blank := {}
  complete d := .ok d.fill

def OutputFormat.reader : Reader OutputFormat :=
  Reader.label ([OutputFormat.text, OutputFormat.json].map fun f => (f.label, f))

/-- The members of `CliConfig` that have been read. -/
structure CliConfig.Draft where
  format : Option OutputFormat := none
  maxEvents : Option (Option UInt64) := none

def CliConfig.Draft.fill (d : CliConfig.Draft) : CliConfig :=
  let standard : CliConfig := {}
  { format := d.format.getD standard.format
    maxEvents := d.maxEvents.getD standard.maxEvents }

def CliConfig.shape : Shape CliConfig.Draft CliConfig where
  name := "CliConfig"
  members := [
    ⟨"format", fun d => d.format.isSome,
      OutputFormat.reader.map fun f d => { d with format := some f }⟩,
    ⟨"max_events", fun d => d.maxEvents.isSome,
      (Reader.optionalNat64 "u64").map fun n d => { d with maxEvents := some n }⟩]
  blank := {}
  complete d := .ok d.fill

/-- The members of `Config` that have been read. -/
structure Config.Draft where
  monitor : Option MonitorConfig := none
  cli : Option CliConfig := none

def Config.shape : Shape Config.Draft Config where
  name := "Config"
  members := [
    ⟨"monitor", fun d => d.monitor.isSome,
      MonitorConfig.shape.reader.map fun c d => { d with monitor := some c }⟩,
    ⟨"cli", fun d => d.cli.isSome,
      CliConfig.shape.reader.map fun c d => { d with cli := some c }⟩]
  blank := {}
  complete d := .ok { monitor := d.monitor.getD {}, cli := d.cli.getD {} }

def Config.reader : Reader Config := Config.shape.reader

def Config.read (text : String) : Except ReadError Config := Config.reader.readAll text

end DirWatch

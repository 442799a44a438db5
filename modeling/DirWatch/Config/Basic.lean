import DirWatch.Change.Filter

/-!
# Configuration

What a session and the command line can be told. A value is valid if its read buffer has a size
within limits and its journal has room for a change.
-/

namespace DirWatch

/-- How the command line writes events. -/
inductive OutputFormat where
  /-- One line for each change. -/
  | text
  /-- One JSON object for each event. -/
  | json
  deriving DecidableEq, Inhabited

/-- What the watches of a session share. -/
structure MonitorConfig where
  /-- The size of a watch's read buffer in bytes. -/
  bufferSize : UInt64 := 16384
  /-- The most changes that wait for a read before they are given up. -/
  maxPendingChanges : UInt64 := 4096
  /-- How long closing a watch waits for its last read. -/
  closeWaitMs : UInt64 := 1000
  /-- Whether a watch set up without a choice includes the directories below. -/
  includeSubtree : Bool := true
  /-- The classes of a watch set up without a choice. -/
  filter : Filter := Filter.standard
  deriving DecidableEq, Inhabited

/-- What the command line adds. -/
structure CliConfig where
  format : OutputFormat := .text
  /-- The number of events after which the command ends. -/
  maxEvents : Option UInt64 := none
  deriving DecidableEq, Inhabited

/-- The whole configuration. -/
structure Config where
  monitor : MonitorConfig := {}
  cli : CliConfig := {}
  deriving DecidableEq, Inhabited

def minBufferSize : UInt64 := 16

def maxBufferSize : UInt64 := 1048576

/-- Why an option cannot be used. -/
inductive InvalidOption where
  | bufferTooSmall
  | bufferTooLarge
  | noJournal
  /-- A class name that means no class, as it was written. -/
  | unknownClass (name : String)
  deriving DecidableEq

namespace InvalidOption

/-- The option at fault. -/
def option : InvalidOption → String
  | bufferTooSmall | bufferTooLarge => "buffer_size"
  | noJournal => "max_pending_changes"
  | unknownClass _ => "filter"

/-- What is wrong with it. -/
def reason : InvalidOption → String
  | bufferTooSmall => "must be at least " ++ toString minBufferSize ++ " bytes"
  | bufferTooLarge => "must be at most " ++ toString maxBufferSize ++ " bytes"
  | noJournal => "must be positive"
  | unknownClass name => "unknown change class '" ++ name ++ "'"

def message (e : InvalidOption) : String :=
  "invalid configuration option '" ++ e.option ++ "': " ++ e.reason

end InvalidOption

/-- The first option that cannot be used. -/
def MonitorConfig.firstInvalid? (c : MonitorConfig) : Option InvalidOption :=
  if c.bufferSize < minBufferSize then some .bufferTooSmall
  else if maxBufferSize < c.bufferSize then some .bufferTooLarge
  else if c.maxPendingChanges = 0 then some .noJournal
  else none

/-- The first option of a configuration that cannot be used. -/
def Config.firstInvalid? (c : Config) : Option InvalidOption := c.monitor.firstInvalid?

/-- A configuration is valid exactly within its limits. -/
theorem Config.firstInvalid?_eq_none_iff (c : Config) :
    c.firstInvalid? = none ↔
      minBufferSize ≤ c.monitor.bufferSize ∧ c.monitor.bufferSize ≤ maxBufferSize ∧
        c.monitor.maxPendingChanges ≠ 0 := by
  simp only [Config.firstInvalid?, MonitorConfig.firstInvalid?]
  split
  · next h => simp [UInt64.not_le.mpr h]
  · next low =>
    split
    · next h => simp [UInt64.not_le.mpr h]
    · next high =>
      have low := UInt64.not_lt.mp low
      have high := UInt64.not_lt.mp high
      split <;> simp_all

end DirWatch

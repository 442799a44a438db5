import DirWatch.Json.Reader
import DirWatch.Json.Value

/-!
# Handles

A handle names a watch. Handles are numbered in the order in which watches are set up, from 1 on, so
that a word of 64 bits holds the same number for each of the first `2 ^ 64 - 1` watches.
-/

namespace DirWatch

/-- The name of a watch. -/
structure Handle where
  number : Nat
  deriving DecidableEq, Inhabited

namespace Handle

def display (h : Handle) : String := "dirmon#" ++ toString h.number

def json (h : Handle) : Json.Value := .nat h.number

def reader : Json.Reader Handle := (Json.Reader.nat64 "u64").map fun n => ⟨n.toNat⟩

end Handle

end DirWatch

import DirWatch.Change.Basic
import DirWatch.Change.Filter
import DirWatch.Path.Basic

/-!
# Notices

What the notification backend says about the file system, and the change that a watch makes of it. A
notice has a kind; the kind decides the action and the change classes (`NoticeKind.classify`). The
first path of the notice gives the name of the change, if it lies below the root of the watch.
-/

namespace DirWatch

/-- How a file was opened or closed. -/
inductive AccessMode where
  | any
  | execute
  | read
  | write
  | other
  deriving DecidableEq

/-- How an entry was accessed. -/
inductive AccessKind where
  | any
  | read
  | opened (mode : AccessMode)
  | closed (mode : AccessMode)
  | other
  deriving DecidableEq

/-- What kind of entry came or went. -/
inductive EntryKind where
  | any
  | file
  | directory
  | other
  deriving DecidableEq

/-- What changed of the data of a file. -/
inductive DataChange where
  | any
  | size
  | content
  | other
  deriving DecidableEq

/-- What changed of the metadata of an entry. -/
inductive MetadataChange where
  | any
  | accessTime
  | writeTime
  | permissions
  | ownership
  | extended
  | other
  deriving DecidableEq

/-- Which side of a rename a notice is about. -/
inductive RenameSide where
  | any
  | newName
  | oldName
  /-- Both sides at once; the backend has told each of them already. -/
  | both
  | other
  deriving DecidableEq

/-- What was modified. -/
inductive ModifyKind where
  | any
  | data (change : DataChange)
  | metadata (change : MetadataChange)
  | name (side : RenameSide)
  | other
  deriving DecidableEq

/-- What a notice is about. -/
inductive NoticeKind where
  | any
  | access (kind : AccessKind)
  | create (kind : EntryKind)
  | modify (kind : ModifyKind)
  | remove (kind : EntryKind)
  | other
  deriving DecidableEq

/-- What the backend says. -/
structure Notice where
  kind : NoticeKind
  paths : List RawPath
  /-- The backend has lost notices; this one says nothing else. -/
  rescan : Bool
  deriving DecidableEq

/-- The class of an entry that came or went. -/
def EntryKind.filter : EntryKind → Filter
  | file => .fileName
  | directory => .dirName
  | any | other => .names

/-- The class of a change of data. -/
def DataChange.filter : DataChange → Filter
  | size => .size
  | content => .lastWrite
  | any | other => Filter.lastWrite.union .size

/-- The class of a change of metadata. -/
def MetadataChange.filter : MetadataChange → Filter
  | writeTime => .lastWrite
  | accessTime => .lastAccess
  | permissions | ownership => .security
  | any | extended | other => .attributes

/-- The action and the classes of a kind, if it has any. Where a rename does not say which side it
is about, the side is told by `present`: whether the first path leads anywhere now. -/
def NoticeKind.classify (present : Bool) : NoticeKind → Option (Action × Filter)
  | .create entry => some (.added, entry.filter)
  | .remove entry => some (.removed, entry.filter)
  | .modify (.name .oldName) => some (.renamedFrom, .names)
  | .modify (.name .newName) => some (.renamedTo, .names)
  | .modify (.name .both) => none
  | .modify (.name .any) | .modify (.name .other) =>
    some (if present then .renamedTo else .renamedFrom, .names)
  | .modify (.data change) => some (.modified, change.filter)
  | .modify (.metadata change) => some (.modified, change.filter)
  | .modify .any | .modify .other =>
    some (.modified, (Filter.lastWrite.union .size).union .attributes)
  | .access _ => some (.modified, .lastAccess)
  | .any | .other => none

/-- The change that a watch of `root` makes of a notice, if its filter selects one. `present` tells
which paths lead anywhere. -/
def Notice.change? (present : RawPath → Bool) (root : RawPath) (filter : Filter) (n : Notice) :
    Option Change :=
  let first := n.paths.head?
  match n.kind.classify (first.any present) with
  | none => none
  | some (action, classes) =>
    if filter.intersects classes then
      (first.bind root.relativeName?).map fun name => ⟨action, name⟩
    else none

end DirWatch

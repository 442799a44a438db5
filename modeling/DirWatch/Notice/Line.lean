import DirWatch.Directory.Host

/-!
# Notices as lines

A notice on one line: the label of its kind, a blank and a path. The label `fail` stands for an
error of the backend and is followed by its wording, the label `rescan` for the loss of notices.
-/

namespace DirWatch

/-! ## Labels of kinds -/

/-- The name of a way to open or close a file. -/
def AccessMode.label : AccessMode → String
  | any => "any"
  | execute => "execute"
  | read => "read"
  | write => "write"
  | other => "other"

/-- The name of an access. -/
def AccessKind.label : AccessKind → String
  | any => "any"
  | read => "read"
  | opened mode => "open." ++ mode.label
  | closed mode => "close." ++ mode.label
  | other => "other"

/-- The name of a kind of entry. -/
def EntryKind.label : EntryKind → String
  | any => "any"
  | file => "file"
  | directory => "folder"
  | other => "other"

/-- The name of a change of data. -/
def DataChange.label : DataChange → String
  | any => "any"
  | size => "size"
  | content => "content"
  | other => "other"

/-- The name of a change of metadata. -/
def MetadataChange.label : MetadataChange → String
  | any => "any"
  | accessTime => "access_time"
  | writeTime => "write_time"
  | permissions => "permissions"
  | ownership => "ownership"
  | extended => "extended"
  | other => "other"

/-- The name of a side of a rename. -/
def RenameSide.label : RenameSide → String
  | any => "any"
  | newName => "to"
  | oldName => "from"
  | both => "both"
  | other => "other"

/-- The name of a modification. -/
def ModifyKind.label : ModifyKind → String
  | any => "any"
  | data change => "data." ++ change.label
  | metadata change => "metadata." ++ change.label
  | name side => "name." ++ side.label
  | other => "other"

namespace NoticeKind

/-- The name of a kind. -/
def label : NoticeKind → String
  | any => "any"
  | access kind => "access." ++ kind.label
  | create kind => "create." ++ kind.label
  | modify kind => "modify." ++ kind.label
  | remove kind => "remove." ++ kind.label
  | other => "other"

/-- Every kind there is. -/
def all : List NoticeKind :=
  let modes : List AccessMode := [.any, .execute, .read, .write, .other]
  let entries : List EntryKind := [.any, .file, .directory, .other]
  let accesses : List AccessKind :=
    [.any, .read, .other] ++ modes.map AccessKind.opened ++ modes.map AccessKind.closed
  let data : List DataChange := [.any, .size, .content, .other]
  let metadata : List MetadataChange :=
    [.any, .accessTime, .writeTime, .permissions, .ownership, .extended, .other]
  let sides : List RenameSide := [.any, .newName, .oldName, .both, .other]
  let modifications : List ModifyKind :=
    [.any, .other] ++ data.map ModifyKind.data ++ metadata.map ModifyKind.metadata ++
      sides.map ModifyKind.name
  [any, other] ++ accesses.map access ++ entries.map create ++ entries.map remove ++
    modifications.map modify

/-- The kind with a name. -/
def ofLabel? (text : String) : Option NoticeKind := all.find? fun k => k.label == text

/-- The list leaves no kind out. -/
theorem mem_all (k : NoticeKind) : k ∈ all := by
  cases k with
  | any => decide
  | other => decide
  | access kind =>
    cases kind with
    | opened mode => cases mode <;> decide
    | closed mode => cases mode <;> decide
    | _ => decide
  | create kind => cases kind <;> decide
  | remove kind => cases kind <;> decide
  | modify kind =>
    cases kind with
    | data change => cases change <;> decide
    | metadata change => cases change <;> decide
    | name side => cases side <;> decide
    | _ => decide

end NoticeKind

/-! ## Lines -/

/-- What a line says; paths are taken from the working directory of the tree. -/
def Delivery.ofLine? (tree : FileTree) (line : String) : Option Delivery :=
  let label := String.ofList (line.toList.takeWhile (· ≠ ' '))
  let rest := String.ofList ((line.toList.dropWhile (· ≠ ' ')).drop 1)
  if label = "fail" then some (.error ⟨.generic rest, []⟩)
  else if label = "rescan" then some (.ok ⟨.other, [], true⟩)
  else
    (NoticeKind.ofLabel? label).map fun kind =>
      .ok ⟨kind, [tree.absolute (RawPath.ofString rest)], false⟩

end DirWatch

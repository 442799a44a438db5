/-!
# Kinds of input and output errors

What can go wrong when the system is asked for something, broadly: errors of one kind are met in the
same way. Output names a kind by its label, and `IoKind.ofLabel?_label` says that the label leads
back to it.
-/

namespace DirWatch

/-- What went wrong, broadly. -/
inductive IoKind where
  | notFound
  | permissionDenied
  | connectionRefused
  | connectionReset
  | hostUnreachable
  | networkUnreachable
  | connectionAborted
  | notConnected
  | addressInUse
  | addressNotAvailable
  | networkDown
  | brokenPipe
  | alreadyExists
  | wouldBlock
  | notADirectory
  | isADirectory
  | directoryNotEmpty
  | readOnlyFilesystem
  | filesystemLoop
  | staleNetworkFileHandle
  | invalidInput
  | invalidData
  | timedOut
  | writeZero
  | storageFull
  | notSeekable
  | quotaExceeded
  | fileTooLarge
  | resourceBusy
  | executableFileBusy
  | deadlock
  | crossesDevices
  | tooManyLinks
  | invalidFilename
  | argumentListTooLong
  | interrupted
  | unsupported
  | unexpectedEof
  | outOfMemory
  | inProgress
  | tooManyOpenFiles
  | inputOutputError
  | other
  | uncategorized
  deriving DecidableEq, Inhabited

namespace IoKind

/-- Every kind. -/
def all : List IoKind := [
  notFound, permissionDenied, connectionRefused, connectionReset, hostUnreachable,
  networkUnreachable, connectionAborted, notConnected, addressInUse, addressNotAvailable,
  networkDown, brokenPipe, alreadyExists, wouldBlock, notADirectory, isADirectory,
  directoryNotEmpty, readOnlyFilesystem, filesystemLoop, staleNetworkFileHandle, invalidInput,
  invalidData, timedOut, writeZero, storageFull, notSeekable, quotaExceeded, fileTooLarge,
  resourceBusy, executableFileBusy, deadlock, crossesDevices, tooManyLinks, invalidFilename,
  argumentListTooLong, interrupted, unsupported, unexpectedEof, outOfMemory, inProgress,
  tooManyOpenFiles, inputOutputError, other, uncategorized]

/-- The name of a kind in output. -/
def label : IoKind → String
  | notFound => "NotFound"
  | permissionDenied => "PermissionDenied"
  | connectionRefused => "ConnectionRefused"
  | connectionReset => "ConnectionReset"
  | hostUnreachable => "HostUnreachable"
  | networkUnreachable => "NetworkUnreachable"
  | connectionAborted => "ConnectionAborted"
  | notConnected => "NotConnected"
  | addressInUse => "AddrInUse"
  | addressNotAvailable => "AddrNotAvailable"
  | networkDown => "NetworkDown"
  | brokenPipe => "BrokenPipe"
  | alreadyExists => "AlreadyExists"
  | wouldBlock => "WouldBlock"
  | notADirectory => "NotADirectory"
  | isADirectory => "IsADirectory"
  | directoryNotEmpty => "DirectoryNotEmpty"
  | readOnlyFilesystem => "ReadOnlyFilesystem"
  | filesystemLoop => "FilesystemLoop"
  | staleNetworkFileHandle => "StaleNetworkFileHandle"
  | invalidInput => "InvalidInput"
  | invalidData => "InvalidData"
  | timedOut => "TimedOut"
  | writeZero => "WriteZero"
  | storageFull => "StorageFull"
  | notSeekable => "NotSeekable"
  | quotaExceeded => "QuotaExceeded"
  | fileTooLarge => "FileTooLarge"
  | resourceBusy => "ResourceBusy"
  | executableFileBusy => "ExecutableFileBusy"
  | deadlock => "Deadlock"
  | crossesDevices => "CrossesDevices"
  | tooManyLinks => "TooManyLinks"
  | invalidFilename => "InvalidFilename"
  | argumentListTooLong => "ArgumentListTooLong"
  | interrupted => "Interrupted"
  | unsupported => "Unsupported"
  | unexpectedEof => "UnexpectedEof"
  | outOfMemory => "OutOfMemory"
  | inProgress => "InProgress"
  | tooManyOpenFiles => "TooManyOpenFiles"
  | inputOutputError => "InputOutputError"
  | other => "Other"
  | uncategorized => "Uncategorized"

def ofLabel? (label : String) : Option IoKind :=
  all.find? fun k => k.label == label

@[simp] theorem ofLabel?_label (k : IoKind) : ofLabel? k.label = some k := by
  cases k <;> rfl

end IoKind

end DirWatch

import PageServer.Fault

/-!
# Errors

What can stop the server from starting or a user table from being written, and the wording
of each.
-/

namespace PageServer

/-- The kinds of failure that an operation on files or sockets reports. -/
inductive IoErrorKind
  | notFound
  | notADirectory
  | isADirectory
  | alreadyExists
  | directoryNotEmpty
  | invalidInput
  | invalidFilename
  | filesystemLoop
  | tooManyOpenFiles
  | unsupportedMapping
  | addrInUse
  | addrNotAvailable
  | permissionDenied
  | networkUnreachable
  | resourceBusy
  deriving DecidableEq, Repr

structure IoError where
  kind : IoErrorKind
  message : String
  deriving DecidableEq, Repr

namespace IoErrorKind

def name : IoErrorKind → String
  | notFound => "NotFound"
  | notADirectory => "NotADirectory"
  | isADirectory => "IsADirectory"
  | alreadyExists => "AlreadyExists"
  | directoryNotEmpty => "DirectoryNotEmpty"
  | invalidInput => "InvalidInput"
  | invalidFilename => "InvalidFilename"
  | filesystemLoop => "FilesystemLoop"
  | tooManyOpenFiles => "TooManyOpenFiles"
  | unsupportedMapping => "Uncategorized"
  | addrInUse => "AddrInUse"
  | addrNotAvailable => "AddrNotAvailable"
  | permissionDenied => "PermissionDenied"
  | networkUnreachable => "NetworkUnreachable"
  | resourceBusy => "ResourceBusy"

/-- The number under which the system reports the kind. -/
def code : IoErrorKind → Nat
  | notFound => 2
  | notADirectory => 20
  | isADirectory => 21
  | alreadyExists => 17
  | directoryNotEmpty => 39
  | invalidInput => 22
  | invalidFilename => 36
  | filesystemLoop => 40
  | tooManyOpenFiles => 24
  | unsupportedMapping => 19
  | addrInUse => 98
  | addrNotAvailable => 99
  | permissionDenied => 13
  | networkUnreachable => 101
  | resourceBusy => 16

/-- What the system says of the kind. -/
def text : IoErrorKind → String
  | notFound => "No such file or directory"
  | notADirectory => "Not a directory"
  | isADirectory => "Is a directory"
  | alreadyExists => "File exists"
  | directoryNotEmpty => "Directory not empty"
  | invalidInput => "Invalid argument"
  | invalidFilename => "File name too long"
  | filesystemLoop => "Too many levels of symbolic links"
  | tooManyOpenFiles => "Too many open files"
  | unsupportedMapping => "No such device"
  | addrInUse => "Address already in use"
  | addrNotAvailable => "Cannot assign requested address"
  | permissionDenied => "Permission denied"
  | networkUnreachable => "Network is unreachable"
  | resourceBusy => "Device or resource busy"

/-- The text and the number. -/
def description (kind : IoErrorKind) : String :=
  s!"{kind.text} (os error {kind.code})"

/-- The error that the system reports for this kind. -/
def error (kind : IoErrorKind) : IoError :=
  ⟨kind, kind.description⟩

end IoErrorKind

inductive ServerError
  | io (error : IoError)
  | config (reason : String)
  | database (reason : String)
  | json (reason : String)
  | slotTableFull
  deriving DecidableEq, Repr

namespace ServerError

def message : ServerError → String
  | io e => s!"I/O error: {e.message}"
  | config reason => s!"Invalid configuration: {reason}"
  | database reason => s!"Database error: {reason}"
  | json reason => s!"JSON error: {reason}"
  | slotTableFull => "Connection slot table is full"

end ServerError

/-- Why something cannot be set up: for a reason that can be told, or by a fault. -/
inductive Failure
  | refused (error : ServerError)
  | fault (fault : Fault)
  deriving DecidableEq, Repr

end PageServer

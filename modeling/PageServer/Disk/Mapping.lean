import PageServer.Disk.File

/-!
# Mapped files

A file as part of the memory of the server. A mapping keeps the length that the file had
when it was made, shows what the file holds now, and outlives the file's name.
-/

namespace PageServer

structure Mapping where
  /-- The number of the file. -/
  number : Nat
  bytes : Bytes
  /-- Bytes at the end that cannot be read any more. -/
  lost : Nat := 0
  deriving DecidableEq, Repr

namespace Mapping

def length (m : Mapping) : Nat :=
  m.bytes.length

/-- Files are mapped in pages of this many bytes. -/
def pageSize : Nat :=
  4096

/-- Bytes of the pages that a file of `n` bytes takes. -/
def paged (n : Nat) : Nat :=
  (n + pageSize - 1) / pageSize * pageSize

/-- What a mapping of `length` bytes shows of `data`: zeros up to the end of the last
page, and nothing that could be read behind it. -/
def shown (length : Nat) (data : Bytes) : Bytes :=
  (data ++ List.replicate (paged data.length - data.length) 0).take length

/-- The mapping once the file holds `data`. -/
def update (data : Bytes) (m : Mapping) : Mapping :=
  let bytes := shown m.length data
  let lost := m.length - bytes.length
  { m with bytes := bytes ++ List.replicate lost 0, lost }

theorem length_update (data : Bytes) (m : Mapping) : (m.update data).length = m.length := by
  have h : (shown m.length data).length ≤ m.length := List.length_take_le _ _
  rw [update, length, List.length_append, List.length_replicate]
  omega

/-- The mapping as the file is on a disk. -/
def refresh (d : Disk) (m : Mapping) : Mapping :=
  match d.entry? m.number with
  | some (.file _ data) => m.update data
  | _ => m

end Mapping

/-- Maps the whole file at `path`; only a file that is not empty can be mapped. -/
def Disk.map (d : Disk) (path : String) : Except IoErrorKind Mapping :=
  (d.openEntry path).bind fun n => match d.entry? n with
    | some (.file _ []) => .error .invalidInput
    | some (.file _ data) => .ok { number := n, bytes := data }
    | _ => .error .unsupportedMapping

end PageServer

import Mathlib.Data.List.Basic
import Mathlib.Data.List.Infix

/-! A file that is appended to through a buffer: what is on the disk, and what waits. -/

structure BufferedFile where
  disk : List UInt8
  buffered : List UInt8
  deriving DecidableEq

namespace BufferedFile

/-- A stream that has just been opened for appending. -/
def ofDisk (disk : List UInt8) : BufferedFile := ⟨disk, []⟩

/-- What the writer has handed over. -/
def contents (f : BufferedFile) : List UInt8 := f.disk ++ f.buffered

/-- A write of which only the first bytes are accepted. -/
def write (f : BufferedFile) (data : List UInt8) (accepted : Nat) : BufferedFile :=
  ⟨f.disk, f.buffered ++ data.take accepted⟩

/-- The first waiting bytes go to the disk. -/
def flush (f : BufferedFile) (n : Nat) : BufferedFile :=
  ⟨f.disk ++ f.buffered.take n, f.buffered.drop n⟩

/-- The stream ends, and what has not gone to the disk by then is lost. -/
def finish (f : BufferedFile) (n : Nat) : BufferedFile := ⟨f.disk ++ f.buffered.take n, []⟩

@[simp] theorem contents_ofDisk (disk : List UInt8) : (ofDisk disk).contents = disk := by
  simp [contents, ofDisk]

@[simp] theorem contents_write (f : BufferedFile) (data : List UInt8) (accepted : Nat) :
    (f.write data accepted).contents = f.contents ++ data.take accepted := by
  simp [contents, write]

@[simp] theorem contents_flush (f : BufferedFile) (n : Nat) : (f.flush n).contents = f.contents := by
  simp [contents, flush]

theorem disk_isPrefix (f : BufferedFile) : f.disk <+: f.contents := List.prefix_append _ _

theorem finish_isPrefix (f : BufferedFile) (n : Nat) : (f.finish n).disk <+: f.contents :=
  (List.prefix_append_right_inj _).mpr (List.take_prefix n f.buffered)

theorem finish_whole {f : BufferedFile} {n : Nat} (h : f.buffered.length ≤ n) :
    (f.finish n).disk = f.contents := by
  rw [finish, contents, List.take_of_length_le h]

end BufferedFile

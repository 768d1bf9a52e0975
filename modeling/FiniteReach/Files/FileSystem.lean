import FiniteReach.Files.Disk

/-!
# File systems

`FileSystem` is what the commands ask of the system they run on. A disk that a computation carries
along is one (`StateM Disk`), so what a command does to files can be computed.
-/

namespace FiniteReach

/-- The operations on files, by path. -/
class FileSystem (m : Type → Type) where
  /-- A source that reads a file. -/
  openRead : String → m (Except IoFault Source)
  /-- Whether there is a file or a directory. -/
  holds : String → m Bool
  /-- Creates a file, or empties one that is there. -/
  create : String → m (Except IoFault Unit)
  /-- Writes the content of a file that has been created. -/
  write : String → Bytes → m (Except IoFault Unit)
  /-- Makes a directory and those above it. -/
  makeDirectories : String → m (Except IoFault Unit)

instance : FileSystem (StateM Disk) where
  openRead path := return (← get).openRead path
  holds path := return (← get).holds path
  create path := modifyGet fun disk => disk.write path []
  write path content := modifyGet fun disk => disk.write path content
  makeDirectories path := modifyGet fun disk => disk.makeDirectories path

end FiniteReach

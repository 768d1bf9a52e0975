import FiniteReach.Files.FileSystem
import FiniteReach.Proofs.Disk

/-!
# File systems with laws

The commands run on any `FileSystem`, and what they do to files follows from few laws of one that
has a state. In a `QuietFileSystem` reading leaves the state alone. A `FramedFileSystem` shows which
regular files there are, and an operation on a path spares all files but the one of the path. In a
`RetentiveFileSystem` what is written to a path is read from it, and in a `LastingFileSystem` it is
so if writing has not failed. Whatever else may fail, for lack of a permission or of a device, is
left open. A disk is a file system of each kind.
-/

namespace FiniteReach

open FileSystem

variable {σ : Type} [FileSystem (StateM σ)]

/-- The result of opening the file of a path in a state. -/
def FileSystem.opened (s : σ) (path : String) : Except IoFault Source :=
  ((openRead path : StateM σ (Except IoFault Source)).run s).1

/-- Whether there is something at a path in a state. -/
def FileSystem.held (s : σ) (path : String) : Bool := ((holds path : StateM σ Bool).run s).1

/-- Whether something can be written to a path in a state. -/
def FileSystem.Creatable (s : σ) (path : String) : Prop :=
  ∃ s', (create path : StateM σ (Except IoFault Unit)).run s = (.ok (), s')

/-! ## Laws -/

/-- A file system of which reading changes nothing. -/
class QuietFileSystem (σ : Type) [FileSystem (StateM σ)] : Prop where
  openRead_unchanged (path : String) (s : σ) :
    ((openRead path : StateM σ (Except IoFault Source)).run s).2 = s
  holds_unchanged (path : String) (s : σ) : ((holds path : StateM σ Bool).run s).2 = s

/-- A file system in which operations on a path change no regular file but that of the path. What a
path leads to that is no regular file, such as a device, may take or refuse what is written. -/
class FramedFileSystem (σ : Type) [FileSystem (StateM σ)] extends QuietFileSystem σ where
  /-- What tells a regular file from others. -/
  Key : Type
  /-- What the regular file of a key holds, if there is one. -/
  file? : σ → Key → Option Bytes
  /-- The regular file that writing to a path goes to. -/
  target? : σ → String → Option Key
  makeDirectories_frame (path : String) (s : σ) :
    file? ((makeDirectories path : StateM σ (Except IoFault Unit)).run s).2 = file? s
  create_refused {path : String} {s s' : σ} {fault : IoFault} :
    (create path : StateM σ (Except IoFault Unit)).run s = (.error fault, s') → file? s' = file? s
  create_frame {path : String} {s s' : σ} (key : Key) :
    (create path : StateM σ (Except IoFault Unit)).run s = (.ok (), s') →
      file? s' key = file? s key ∨ target? s' path = some key
  write_frame {path : String} {content : Bytes} {s mid s' : σ} {result : Except IoFault Unit}
    (key : Key) : (create path : StateM σ (Except IoFault Unit)).run s = (.ok (), mid) →
      (write path content : StateM σ (Except IoFault Unit)).run mid = (result, s') →
        target? s' path = target? mid path ∧
          (file? s' key = file? mid key ∨ target? mid path = some key)
  /-- Writing to a regular file that has been created does not fail. -/
  write_ok {path : String} {content : Bytes} {s mid s' : σ} {fault : IoFault} :
    (create path : StateM σ (Except IoFault Unit)).run s = (.ok (), mid) →
      (write path content : StateM σ (Except IoFault Unit)).run mid = (.error fault, s') →
        target? mid path = none

/-- A file system in which what is written to a path stays there and can be read. -/
class RetentiveFileSystem (σ : Type) [FileSystem (StateM σ)] : Prop extends QuietFileSystem σ where
  write_created {path : String} {s mid : σ} (content : Bytes) :
    (create path : StateM σ (Except IoFault Unit)).run s = (.ok (), mid) →
      ∃ s', (write path content : StateM σ (Except IoFault Unit)).run mid = (.ok (), s') ∧
        opened s' path = .ok (.ofBytes content)

/-- A file system in which what has been written to a path is there and can be read. Writing to it
may fail. -/
class LastingFileSystem (σ : Type) [FileSystem (StateM σ)] : Prop extends QuietFileSystem σ where
  written {path : String} {content : Bytes} {s mid s' : σ} :
    (create path : StateM σ (Except IoFault Unit)).run s = (.ok (), mid) →
      (write path content : StateM σ (Except IoFault Unit)).run mid = (.ok (), s') →
        opened s' path = .ok (.ofBytes content) ∧ held s' path = true

/-! ## Disks -/

theorem create_run (path : String) (disk : Disk) :
    (create path : StateM Disk (Except IoFault Unit)).run disk = disk.write path [] := rfl

theorem creatable_of_target {disk : Disk} {path : String} {place : Place}
    (h : disk.target path = .ok place) : Creatable disk path :=
  ⟨disk.put place (.file []), (create_run path disk).trans (Disk.write_eq_ok.2 ⟨place, h, rfl⟩)⟩

instance : QuietFileSystem Disk where
  openRead_unchanged _ _ := rfl
  holds_unchanged _ _ := rfl

instance : FramedFileSystem Disk where
  Key := Place
  file? := Disk.file?
  target? disk path := (disk.target path).toOption
  makeDirectories_frame _ _ := Disk.file?_makeDirectories
  create_refused h := by rw [Disk.write_eq_error h]
  create_frame other h := by
    obtain ⟨place, _, htarget, hframe⟩ := Disk.write_frame h other
    rw [htarget]
    exact hframe.imp_right fun h => congrArg some h.symm
  write_frame {_ _ _ _ _ result} other hcreate hwrite := by
    obtain ⟨place, htarget, _⟩ := Disk.write_eq_ok.1 hcreate
    obtain ⟨_, _, hmid, _⟩ := Disk.write_frame hcreate other
    cases result with
    | error fault =>
        cases Disk.write_eq_error hwrite
        exact ⟨rfl, .inl rfl⟩
    | ok =>
        obtain ⟨place, hmid, htarget, hframe⟩ := Disk.write_frame hwrite other
        rw [hmid, htarget]
        exact ⟨rfl, hframe.imp_right fun h => congrArg some h.symm⟩
  write_ok {_ content mid _ _ _} hcreate hwrite := by
    obtain ⟨place, htarget, _⟩ := Disk.write_eq_ok.1 hcreate
    have hok := (Disk.write_of_write hcreate content).symm.trans hwrite
    rw [Disk.write, htarget] at hok
    cases hok

instance : RetentiveFileSystem Disk where
  write_created {path disk mid} content hcreate := by
    obtain ⟨place, htarget, _⟩ := Disk.write_eq_ok.1 hcreate
    have hwrite : mid.write path content = (.ok (), disk.put place (.file content)) :=
      (Disk.write_of_write hcreate content).trans (Disk.write_eq_ok.2 ⟨place, htarget, rfl⟩)
    exact ⟨_, hwrite, Disk.openRead_of_write hwrite⟩

instance : LastingFileSystem Disk where
  written _ hwrite :=
    ⟨Disk.openRead_of_write hwrite, Disk.holds_of_openRead (Disk.openRead_of_write hwrite)⟩

end FiniteReach

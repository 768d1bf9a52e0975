import FiniteReach.Collect
import FiniteReach.Files.Disk

/-!
# Files that are written and read

Writing to a path changes what one place holds, and that place held no directory. So all paths lead
where they led before (`target_put`), the file that was written is the file that is read
(`openRead_of_write`), and all others are what they were (`write_frame`).
-/

namespace FiniteReach.Disk

variable {disk disk' : Disk} {path : String} {place : Place} {content : Bytes}

/-! ## Entries -/

theorem lookup_filter_of_ne {place other : Place} (h : other ≠ place)
    (entries : List (Place × Entry)) :
    (entries.filter fun (other, _) => other ≠ place).lookup other = entries.lookup other := by
  induction entries with
  | nil => rfl
  | cons held entries ih =>
      obtain ⟨here, entry⟩ := held
      by_cases hhere : here = place
      · have hother : (other == here) = false := beq_false_of_ne (hhere ▸ h)
        rw [List.filter_cons_of_neg (by simpa using hhere), ih, List.lookup_cons, hother]
      · rw [List.filter_cons_of_pos (by simpa using hhere), List.lookup_cons, List.lookup_cons, ih]

theorem entry?_put_self (hplace : place ≠ "") (entry : Entry) :
    Disk.entry? (disk.put place entry) place = some entry := by
  unfold entry?
  rw [if_neg hplace, put, List.lookup_cons_self]

theorem entry?_put_of_ne {other : Place} (h : other ≠ place) (entry : Entry) :
    Disk.entry? (disk.put place entry) other = disk.entry? other := by
  have hother : (other == place) = false := beq_false_of_ne h
  unfold entry?
  rw [put, List.lookup_cons, hother]
  simp only [lookup_filter_of_ne h]

theorem put_put (entry entry' : Entry) :
    (disk.put place entry).put place entry' = disk.put place entry' := by
  simp only [put, ne_eq, decide_not, List.filter_cons, decide_true, Bool.not_true,
    Bool.false_eq_true, ↓reduceIte, List.filter_filter, Bool.and_self]

/-- Directories are the same before and after a file is written. -/
theorem entry?_put_eq_directory (hplace : disk.entry? place ≠ some .directory) {other : Place} :
    Disk.entry? (disk.put place (.file content)) other = some .directory ↔
      disk.entry? other = some .directory := by
  by_cases h : other = place
  · subst h
    have hroot : other ≠ "" := by
      rintro rfl
      exact hplace rfl
    rw [entry?_put_self hroot]
    exact ⟨nofun, fun h => absurd h hplace⟩
  · rw [entry?_put_of_ne h]

/-! ## Paths -/

theorem directory_of_follow {trail trail' : Trail} {part : String}
    (h : disk.follow trail part = .ok trail') : disk.entry? trail.last = some .directory := by
  rw [follow] at h
  split at h
  · cases h
  · cases h
  · next hlast => exact hlast

/-- A part of a path is looked up in a directory, and directories are the same. -/
theorem follow_put (hplace : disk.entry? place ≠ some .directory) {trail trail' : Trail}
    {part : String} : (disk.put place (.file content)).follow trail part = .ok trail' ↔
      disk.follow trail part = .ok trail' := by
  by_cases hlast : disk.entry? trail.last = some .directory
  · rw [follow, follow, hlast, (entry?_put_eq_directory hplace).2 hlast]
  · refine iff_of_false (fun h => hlast ?_) fun h => hlast (directory_of_follow h)
    exact (entry?_put_eq_directory hplace).1 (directory_of_follow h)

theorem foldlM_follow_put (hplace : disk.entry? place ≠ some .directory) {trail trail' : Trail}
    {parts : List String} :
    parts.foldlM (disk.put place (.file content)).follow trail = .ok trail' ↔
      parts.foldlM disk.follow trail = .ok trail' := by
  induction parts generalizing trail with
  | nil => rfl
  | cons part parts ih => simp only [List.foldlM_cons, bind_eq_ok, follow_put hplace, ih]

theorem locate_put (hplace : disk.entry? place ≠ some .directory) {other : Place} :
    (disk.put place (.file content)).locate path = .ok other ↔ disk.locate path = .ok other := by
  have hparts : (disk.put place (.file content)).partsFromRoot path = disk.partsFromRoot path := rfl
  simp only [locate, bind_eq_ok, hparts, foldlM_follow_put hplace]

/-! ## Files -/

theorem target_eq_ok : disk.target path = .ok place ↔ Path.namesDirectory path = false ∧
    disk.locate path = .ok place ∧ disk.entry? place ≠ some .directory := by
  rw [target]
  cases hdirectory : Path.namesDirectory path with
  | true =>
      simp only [↓reduceIte, bind_eq_ok, Bool.true_eq_false, false_and, iff_false]
      rintro ⟨_, _, _, _, h⟩
      cases h
  | false =>
      simp only [Bool.false_eq_true, ↓reduceIte, bind_eq_ok, true_and]
      constructor
      · rintro ⟨other, hlocate, h⟩
        split at h
        · cases h
        · next hentry =>
            cases h
            exact ⟨hlocate, hentry⟩
      · rintro ⟨hlocate, hentry⟩
        refine ⟨place, hlocate, ?_⟩
        rw [if_neg hentry]
        rfl

theorem ne_root_of_target (h : disk.target path = .ok place) : place ≠ "" := by
  rintro rfl
  exact (target_eq_ok.1 h).2.2 rfl

/-- Where a path leads to does not change when a file is written. -/
theorem target_put (hplace : disk.entry? place ≠ some .directory) {other : Place} :
    (disk.put place (.file content)).target path = .ok other ↔ disk.target path = .ok other := by
  simp only [target_eq_ok, locate_put hplace, ne_eq, entry?_put_eq_directory hplace]

theorem target_put_self (h : disk.target path = .ok place) :
    (disk.put place (.file content)).target path = .ok place :=
  (target_put (target_eq_ok.1 h).2.2).2 h

theorem write_eq_ok : disk.write path content = (.ok (), disk') ↔
    ∃ place, disk.target path = .ok place ∧ disk' = disk.put place (.file content) := by
  rw [write]
  cases disk.target path with
  | error fault => simp
  | ok place => simp [eq_comm]

theorem write_eq_error {fault : IoFault} (h : disk.write path content = (.error fault, disk')) :
    disk' = disk := by
  rw [write] at h
  split at h <;> cases h
  rfl

theorem write_of_write (h : disk.write path content = (.ok (), disk')) (content' : Bytes) :
    disk'.write path content' = disk.write path content' := by
  obtain ⟨place, htarget, rfl⟩ := write_eq_ok.1 h
  rw [write, write, htarget, target_put_self htarget]
  simp only [put_put]

theorem openRead_of_write (h : disk.write path content = (.ok (), disk')) :
    disk'.openRead path = .ok (.ofBytes content) := by
  obtain ⟨place, htarget, rfl⟩ := write_eq_ok.1 h
  obtain ⟨hdirectory, hlocate, hentry⟩ := target_eq_ok.1 htarget
  have hfind : (disk.put place (.file content)).find path = .ok (.file content) := by
    rw [find, (locate_put hentry).2 hlocate]
    simp only [bind, Except.bind, entry?_put_self (ne_root_of_target htarget), hdirectory,
      Bool.false_eq_true, ↓reduceIte, pure, Except.pure]
  rw [openRead, hfind]
  rfl

theorem holds_of_openRead {src : Source} (h : disk.openRead path = .ok src) :
    disk.holds path = true := by
  obtain ⟨entry, hfind, _⟩ := bind_eq_ok.1 h
  rw [holds, hfind]
  rfl

/-! ## Which regular files there are -/

/-- The regular file at a place. -/
def file? (disk : Disk) (place : Place) : Option Bytes :=
  match disk.entry? place with
  | some (.file content) => some content
  | _ => none

theorem file?_put_of_ne {other : Place} (h : other ≠ place) (entry : Entry) :
    (disk.put place entry).file? other = disk.file? other := by
  rw [file?, entry?_put_of_ne h, ← file?]

/-- A directory is only made where there was nothing. -/
theorem file?_put_directory (hplace : disk.entry? place = none) :
    (disk.put place .directory).file? = disk.file? := by
  funext other
  by_cases h : other = place
  · subst h
    have hroot : other ≠ "" := by
      rintro rfl
      cases hplace
    rw [file?, entry?_put_self hroot, file?, hplace]
  · exact file?_put_of_ne h .directory

theorem file?_makeAlong (singly : Bool) (trail : Trail) (parts : List String) (disk : Disk) :
    (disk.makeAlong singly trail parts).2.file? = disk.file? := by
  induction parts generalizing disk singly trail with
  | nil => rfl
  | cons part parts ih =>
      rw [makeAlong]
      split
      · rfl
      · split
        · exact ih _ _ _
        · rfl
        · next hentry => exact (ih _ _ _).trans (file?_put_directory hentry)

theorem file?_makeDirectories : (disk.makeDirectories path).2.file? = disk.file? := by
  rw [makeDirectories]
  split
  · rfl
  · exact file?_makeAlong _ _ _ _

/-- All files but the written one are spared, and the path leads where it led before. -/
theorem write_frame (h : disk.write path content = (.ok (), disk')) (other : Place) :
    ∃ place, disk.target path = .ok place ∧ disk'.target path = .ok place ∧
      (disk'.file? other = disk.file? other ∨ other = place) := by
  obtain ⟨place, htarget, rfl⟩ := write_eq_ok.1 h
  refine ⟨place, htarget, target_put_self htarget, ?_⟩
  by_cases hother : other = place
  · exact .inr hother
  · exact .inl (file?_put_of_ne hother _)

end FiniteReach.Disk

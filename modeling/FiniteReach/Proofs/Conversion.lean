import FiniteReach.Proofs.Detection
import FiniteReach.Proofs.Frame

/-!
# Conversions

A conversion reads an automaton before it writes, and it writes what is read back under the extension
of the output. So however often an automaton is converted, each time from the last output, the bytes
are those of one conversion from the first input (`convert_chain`).
-/

namespace FiniteReach

open FileSystem

variable {σ : Type} [FileSystem (StateM σ)] {A : Automaton} {home named : Option String}
  {input output path : String} {format : Format} {fromFormat : Option Format}
  {layout : Option Layout} {s s' : σ}

/-- What an automaton is stored as in a format that an extension tells is read back. -/
theorem Detection.load_encode (hpath : Format.ofPath? path = some format)
    (hlimit : 3 * A.stateCount * A.alphabetSize < limit) :
    load path (.ok (.ofBytes (format.encode A))) none .stateMajor =
      .ok (A, ⟨format, .extension⟩) := by
  rw [load]
  simp only [hpath]
  rw [loadAs_encode fun _ => hlimit]
  rfl

namespace Command

/-- A file is read as an automaton with the options of a conversion. -/
def Reads (A : Automaton) (s : σ) (input : String) (fromFormat : Option Format)
    (layout : Option Layout) : Prop :=
  ∃ detection, (runIn s (load input fromFormat (layout.getD .stateMajor))).1 = .ok (A, detection)

/-- A conversion succeeds, with the format of the output told by its extension. -/
def Converts (home named : Option String) (s : σ) (input output : String)
    (fromFormat : Option Format) (layout : Option Layout) (s' : σ) : Prop :=
  ∃ text, ((convert input output fromFormat none layout).run home named : StateM σ _).run s =
    ((.ok (), text), s')

section Quiet

variable [QuietFileSystem σ]

theorem runIn_conversion_eq_ok :
    runIn s (conversion input output fromFormat none layout) = (.ok format, s') ↔
      Format.ofPath? output = some format ∧ ∃ A, Reads A s input fromFormat layout ∧
        runIn s (store A output format) = (.ok (), s') := by
  have hexpect {found : Option Format} {f : Format} {mid : σ} :
      runIn s (expect (found.elim (.error output) .ok) .noFormat) = (.ok f, mid) ↔
        found = some f ∧ mid = s := by
    cases found with
    | none => exact ⟨nofun, nofun⟩
    | some f' => simp [runIn_expect, eq_comm]
  rw [conversion, runIn_bind_eq_ok]
  constructor
  · rintro ⟨f, _, hformat, h⟩
    obtain ⟨hpath, rfl⟩ := hexpect.1 hformat
    obtain ⟨⟨A, detection⟩, mid, hload, h⟩ := runIn_bind_eq_ok.1 h
    change runIn mid (store A output f >>= fun _ => pure f) = _ at h
    obtain ⟨_, _, hstore, hdone⟩ := runIn_bind_eq_ok.1 h
    cases hdone
    rw [(keeps_load _ _ _).eq_of_run hload] at hstore
    exact ⟨hpath, A, ⟨detection, congrArg Prod.fst hload⟩, hstore⟩
  · rintro ⟨hpath, A, ⟨detection, hread⟩, hstore⟩
    have hload : runIn s (load input fromFormat (layout.getD .stateMajor)) =
      (.ok (A, detection), s) := Prod.ext hread (keeps_load _ _ _ s)
    refine ⟨format, s, hexpect.2 ⟨hpath, rfl⟩, runIn_bind_eq_ok.2 ⟨_, s, hload, ?_⟩⟩
    exact runIn_bind_eq_ok.2 ⟨(), s', hstore, rfl⟩

theorem converts_iff : Converts home named s input output fromFormat layout s' ↔
    ∃ format A, Format.ofPath? output = some format ∧ Reads A s input fromFormat layout ∧
      runIn s (store A output format) = (.ok (), s') := by
  simp only [Converts, run_convert, exists_answered_eq_ok, runIn_conversion_eq_ok,
    exists_and_left]

end Quiet

/-! ## Conversions one after another -/

/-- A file holds just what an automaton is stored as in the format that its extension tells. -/
def Stored (A : Automaton) (s : σ) (path : String) : Prop :=
  ∃ format, Format.ofPath? path = some format ∧ opened s path = .ok (.ofBytes (format.encode A))

/-- Conversions of an automaton that have succeeded, the first from an input with options, and each
further one from the last output. Its options, if it has any, must read the automaton there. -/
inductive Converted (home named : Option String) (A : Automaton) (s : σ) (input : String)
    (fromFormat : Option Format) (layout : Option Layout) : σ → String → Prop where
  | first {output : String} {s' : σ}
    (hconvert : Converts home named s input output fromFormat layout s') :
    Converted home named A s input fromFormat layout s' output
  | next {mid s' : σ} {path output : String} {fromFormat' : Option Format}
    {layout' : Option Layout} (h : Converted home named A s input fromFormat layout mid path)
    (hreads : fromFormat' ≠ none ∨ layout' ≠ none → Reads A mid path fromFormat' layout')
    (hconvert : Converts home named mid path output fromFormat' layout' s') :
    Converted home named A s input fromFormat layout s' output

section Retentive

variable [RetentiveFileSystem σ]

theorem opened_of_store (h : runIn s (store A output format) = (.ok (), s')) :
    opened s' output = .ok (.ofBytes (format.encode A)) := by
  obtain ⟨mid, hcreate, hwrite⟩ := runIn_store_eq_ok.1 h
  obtain ⟨final, hfinal, hopened⟩ :=
    RetentiveFileSystem.write_created (format.encode A) hcreate
  cases hwrite.symm.trans hfinal
  exact hopened

theorem exists_store (h : Creatable s output) (A : Automaton) (format : Format) :
    ∃ s', runIn s (store A output format) = (.ok (), s') := by
  obtain ⟨mid, hcreate⟩ := h
  obtain ⟨s', hwrite, _⟩ := RetentiveFileSystem.write_created (format.encode A) hcreate
  exact ⟨s', runIn_store_eq_ok.2 ⟨mid, hcreate, hwrite⟩⟩

theorem Stored.load (h : Stored A s path) (hlimit : 3 * A.stateCount * A.alphabetSize < limit) :
    ∃ format, Format.ofPath? path = some format ∧
      runIn s (load path none .stateMajor) = (.ok (A, ⟨format, .extension⟩), s) := by
  obtain ⟨format, hpath, hopened⟩ := h
  refine ⟨format, hpath, ?_⟩
  rw [runIn_load, hopened, Detection.load_encode hpath hlimit]
  rfl

/-- The input is read before the output is emptied, so that they may be one file. -/
theorem Converts.stored (hreads : Reads A s input fromFormat layout)
    (h : Converts home named s input output fromFormat layout s') : Stored A s' output := by
  obtain ⟨format, A', hpath, ⟨_, hreads'⟩, hstore⟩ := converts_iff.1 h
  obtain ⟨_, hreads⟩ := hreads
  cases hreads.symm.trans hreads'
  exact ⟨format, hpath, opened_of_store hstore⟩

theorem Converted.stored (hreads : Reads A s input fromFormat layout)
    (hlimit : 3 * A.stateCount * A.alphabetSize < limit)
    (h : Converted home named A s input fromFormat layout s' path) : Stored A s' path := by
  induction h with
  | first hconvert => exact hconvert.stored hreads
  | @next mid s' path output fromFormat' layout' _ hreads' hconvert ih =>
      refine Converts.stored ?_ hconvert
      by_cases hoptions : fromFormat' ≠ none ∨ layout' ≠ none
      · exact hreads' hoptions
      · simp only [ne_eq, not_or, not_not] at hoptions
        obtain ⟨rfl, rfl⟩ := hoptions
        obtain ⟨_, _, hload⟩ := ih.load hlimit
        exact ⟨_, congrArg Prod.fst hload⟩

/-- After any number of conversions the last output is read as the automaton that the first input
was, and it has the bytes that a conversion of the first input writes to any path with the same
format. -/
theorem convert_chain (hreads : Reads A s input fromFormat layout)
    (hlimit : 3 * A.stateCount * A.alphabetSize < limit)
    (h : Converted home named A s input fromFormat layout s' path) :
    ∃ format, Format.ofPath? path = some format ∧
      runIn s' (load path none .stateMajor) = (.ok (A, ⟨format, .extension⟩), s') ∧
      opened s' path = .ok (.ofBytes (format.encode A)) ∧
      ∀ direct, Format.ofPath? direct = some format → Creatable s direct →
        ∃ final, Converts home named s input direct fromFormat layout final ∧
          opened final direct = opened s' path := by
  have hstored := h.stored hreads hlimit
  obtain ⟨format, hpath, hload⟩ := hstored.load hlimit
  obtain ⟨format', hpath', hopened⟩ := hstored
  cases hpath.symm.trans hpath'
  refine ⟨format, hpath, hload, hopened, fun direct hdirect hcreatable => ?_⟩
  obtain ⟨final, hstore⟩ := exists_store hcreatable A format
  exact ⟨final, converts_iff.2 ⟨format, A, hdirect, hreads, hstore⟩,
    (opened_of_store hstore).trans hopened.symm⟩

end Retentive

theorem converts_disk {disk : Disk} {place : Place} (hpath : Format.ofPath? output = some format)
    (hreads : Reads A disk input fromFormat layout) (htarget : disk.target output = .ok place) :
    Converts home named disk input output fromFormat layout
      (disk.put place (.file (format.encode A))) :=
  converts_iff.2 ⟨format, A, hpath, hreads,
    runOn_store_eq_ok.2 (Disk.write_eq_ok.2 ⟨place, htarget, rfl⟩)⟩

/-- A description is converted to JSON, this in place, and what comes of it to the binary form. -/
theorem wide_convert_chain :
    ∃ disk disk' : Disk, disk.openRead "in.txt" = .ok (.ofBytes (Format.text.encode .wide)) ∧
      Reads .wide disk "in.txt" none none ∧
      Converted none none .wide disk "in.txt" none none disk' "out.bin" ∧
      runIn disk' (load "out.bin" none .stateMajor) = (.ok (.wide, ⟨.binary, .extension⟩), disk') ∧
      ∃ final, Converts none none disk "in.txt" "direct.bin" none none final ∧
        opened final "direct.bin" = opened disk' "out.bin" := by
  let disk : Disk := ⟨[("/in.txt", .file (Format.text.encode .wide))], []⟩
  let disk₁ := disk.put "/out.json" (.file (Format.json.encode .wide))
  let disk₂ := disk₁.put "/out.json" (.file (Format.json.encode .wide))
  have hjson : Format.ofPath? "out.json" = some .json := by decide +kernel
  have hbin : Format.ofPath? "out.bin" = some .binary := by decide +kernel
  have hreads : Reads .wide disk "in.txt" none none := ⟨⟨.text, .extension⟩, by decide +kernel⟩
  have hagain : Reads .wide disk₁ "out.json" (some .json) none :=
    ⟨⟨.json, .user⟩, by decide +kernel⟩
  have hlast : Reads .wide disk₂ "out.json" none none := ⟨⟨.json, .extension⟩, by decide +kernel⟩
  have hconverted : Converted none none .wide disk "in.txt" none none
      (disk₂.put "/out.bin" (.file (Format.binary.encode .wide))) "out.bin" :=
    ((Converted.first (converts_disk hjson hreads (by decide +kernel))).next (fun _ => hagain)
      (converts_disk hjson hagain (by decide +kernel))).next nofun
      (converts_disk hbin hlast (by decide +kernel))
  have htarget : disk.target "direct.bin" = .ok "/direct.bin" := by decide +kernel
  have hcreatable := creatable_of_target htarget
  obtain ⟨format, hpath, hload, _, hbytes⟩ := convert_chain hreads (by decide) hconverted
  cases hbin.symm.trans hpath
  exact ⟨disk, _, rfl, hreads, hconverted, hload, hbytes "direct.bin" (by decide +kernel) hcreatable⟩

end Command

end FiniteReach

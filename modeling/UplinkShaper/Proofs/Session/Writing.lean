import UplinkShaper.Proofs.Session.Saving

/-!
Writing a document at a path. Either it is there at the end, and nothing is left beside it, or
what was there before still is. Wherever the writing ends, only the two places and directories on
the way to them are touched.
-/

namespace UplinkShaper

namespace Path

variable {path beside : Path} {ending : String}

theorem withEnding_eq_ok_iff : path.withEnding ending = .ok beside ↔
    ∃ name, path.components.getLast? = some name ∧
      beside = path.parent.child (stem name ++ ending) := by
  unfold withEnding
  cases path.components.getLast? with
  | none => simp
  | some name => simp [eq_comm]

/-- A path whose other ending leads to the same place has that ending itself. -/
theorem eq_of_place_eq (ends : path.withEnding ending = .ok beside)
    (ordinary : ∀ name, name ++ ending ≠ "..") (same : beside.place = path.place) :
    beside = path := by
  rcases withEnding_eq_ok_iff.mp ends with ⟨name, isLast, rfl⟩
  have whole : path.parent.child name = path := by
    rcases path with ⟨anchor, components⟩
    exact congrArg (Path.mk anchor) (List.dropLast_append_getLast? name isLast)
  rw [place_child (ordinary _)] at same
  by_cases isUp : name = ".."
  · subst isUp
    have above : (path.parent.child "..").place = path.parent.place.dropLast := by
      simp [place, child, step]
    have lengths := congrArg List.length (same.trans ((congrArg place whole).symm.trans above))
    rw [List.length_append, List.length_dropLast, List.length_singleton] at lengths
    omega
  · have names := same.trans ((congrArg place whole).symm.trans (place_child isUp))
    rw [List.singleton_inj.mp (List.append_cancel_left names), whole]

end Path

namespace Host

variable {host : Host} {path : Path}

/-- A file is moved with the locks on it, or nothing happens. -/
theorem moveFile_cases (host : Host) (source target : Path) :
    (∃ failure, moveFile source target host = .done host (.error failure) ∧
      (target.check = .ok () → ∀ files, host.files.move source target ≠ .ok files)) ∨
    ∃ files locks, moveFile source target host =
        .done { host with files := files, locks := locks } (.ok ()) ∧
      target.check = .ok () ∧ host.files.move source target = .ok files := by
  unfold moveFile
  rw [Operation.get_bind_apply]
  rcases changeFiles_cases host target (·.move source target) with
    ⟨failure, fails, stays⟩ | ⟨files, changes, checked, moved⟩
  · exact .inl ⟨failure, Operation.bind_of_error fails, stays⟩
  · rw [Operation.bind_of_ok changes]
    rcases Files.move_eq_ok_iff.mp moved with ⟨leads, leadsToo, _⟩
    rw [leads, leadsToo]
    exact .inr ⟨files, _, rfl, checked, moved⟩

end Host

namespace Session

open Host

variable {host : Host} {path : Path} {files files' : Files} {document : Value}

/-- The place of a document, or of the document while it is being written. -/
def WritesAt (path : Path) (place : List String) : Prop :=
  place = path.place ∨
    ∃ beside, path.withEnding unfinishedEnding = .ok beside ∧ place = beside.place

/-- Nothing was touched but the places of a document, and directories that were not there. -/
def TouchesOnly (path : Path) (files files' : Files) : Prop :=
  ∀ place, ¬ WritesAt path place → files'.entry? place = files.entry? place ∨
    files.entry? place = none ∧ files'.entry? place = some .directory ∧
      path.parent.LeadsPast place

/-- A file has the content it had, or there still is none. -/
def KeepsContent (path : Path) (files files' : Files) : Prop :=
  ∀ content, files'.entry? path.place = some (.file content) ↔
    files.entry? path.place = some (.file content)

/-- A document can be read at a path, and is not beside it any more. -/
structure HoldsDocument (path : Path) (document : Value) (files : Files) : Prop where
  checked : path.check = .ok ()
  reads : files.read path = .ok (Json.indented document)
  finished : ∀ beside, path.withEnding unfinishedEnding = .ok beside →
    beside.place ≠ path.place → files.entry? beside.place = none

theorem TouchesOnly.of_addsAlong (adds : Files.AddsAlong path.parent files files') :
    TouchesOnly path files files' :=
  fun place _ => adds place

theorem TouchesOnly.of_same {last : Files} (touches : TouchesOnly path files files')
    (same : ∀ place, ¬ WritesAt path place → last.entry? place = files'.entry? place) :
    TouchesOnly path files last := by
  intro place isOther
  rw [same place isOther]
  exact touches place isOther

/-- A written file is moved to the path it is for. -/
theorem holdsDocument_of_move {beside : Path} {written moved : Files}
    (ends : path.withEnding unfinishedEnding = .ok beside) (checked : path.check = .ok ())
    (isWritten : files.write beside (Json.indented document) = .ok written)
    (isMoved : written.move beside path = .ok moved) :
    HoldsDocument path document moved ∧
      ∀ place, ¬ WritesAt path place → moved.entry? place = files.entry? place := by
  rcases Files.write_eq_ok_iff.mp isWritten with ⟨_, notDirectory, rfl⟩
  rcases Files.move_eq_ok_iff.mp isMoved with ⟨_, leads, _, free, entry, isThere, rfl⟩
  have besideBelow : beside.place ≠ [] := fun isRoot => notDirectory (by rw [isRoot]; rfl)
  have below : path.place ≠ [] := fun isRoot => free (by rw [isRoot]; rfl)
  rw [Files.lookup_set_self besideBelow] at isThere
  cases isThere
  let erased := (files.set beside.place (.file (Json.indented document))).erase beside.place
  have kept : ∀ place, place ≠ beside.place → erased.entry? place = files.entry? place :=
    fun place different => (Files.lookup_erase_of_ne different.symm).trans
      (Files.lookup_set_of_ne different.symm)
  have isFree : erased.entry? path.place ≠ some .directory := by
    intro isDirectory
    by_cases same : beside.place = path.place
    · rw [← same, Files.lookup_erase_self besideBelow] at isDirectory
      cases isDirectory
    · exact free ((Files.lookup_erase_of_ne same).symm.trans isDirectory)
  have leadsLater : Files.placeOf (erased.set path.place (.file (Json.indented document))) path =
      .ok path.place := by
    refine Files.placeOf_of_directories (fun place isDirectory => ?_) leads
    have different : beside.place ≠ place := by
      rintro rfl
      rw [Files.lookup_set_self besideBelow] at isDirectory
      cases isDirectory
    exact Files.directory_set isFree _ ((Files.lookup_erase_of_ne different).trans isDirectory)
  refine ⟨{ checked := checked, reads := ?_, finished := ?_ }, ?_⟩
  · exact Files.read_of_placeOf leadsLater (Files.lookup_set_self below)
  · intro other endsToo different
    cases ends.symm.trans endsToo
    exact (Files.lookup_set_of_ne different.symm).trans (Files.lookup_erase_self besideBelow)
  · intro place isOther
    rw [WritesAt, not_or] at isOther
    have different : place ≠ beside.place := fun same => isOther.2 ⟨beside, ends, same⟩
    exact (Files.lookup_set_of_ne (Ne.symm isOther.1)).trans (kept place different)

/-- A written file that is not moved leaves what is at the path it is for, as it is beside it. -/
theorem keepsContent_of_not_move {beside : Path} {written : Files}
    (ends : path.withEnding unfinishedEnding = .ok beside) (checked : beside.check = .ok ())
    (isWritten : files.write beside (Json.indented document) = .ok written)
    (stays : path.check = .ok () → ∀ moved, written.move beside path ≠ .ok moved) :
    KeepsContent path files written ∧
      ∀ place, ¬ WritesAt path place → written.entry? place = files.entry? place := by
  have ordinary : ∀ name, name ++ unfinishedEnding ≠ ".." :=
    fun name => unfinished_ne name (by decide)
  rcases Files.write_eq_ok_iff.mp isWritten with ⟨leads, notDirectory, rfl⟩
  have different : beside.place ≠ path.place := by
    intro same
    cases Path.eq_of_place_eq ends ordinary same
    have below : path.place ≠ [] := fun isRoot => notDirectory (by rw [isRoot]; rfl)
    have isFile : Files.entry? (files.set path.place (.file (Json.indented document))) path.place =
        some (.file (Json.indented document)) := Files.lookup_set_self below
    have leadsLater := Files.placeOf_of_directories
      (fun _ => Files.directory_set notDirectory (.file (Json.indented document))) leads
    have moves := Files.move_eq_ok_iff.mpr ⟨leadsLater, leadsLater, ?_, ?_, _, isFile, rfl⟩
    · exact stays checked _ moves
    · rcases Path.withEnding_eq_ok_iff.mp ends with ⟨name, isLast, isBeside⟩
      rw [isBeside]
      simpa [Path.child] using ordinary (Path.stem name)
    · rw [isFile]
      intro isDirectory
      cases isDirectory
  constructor
  · intro content
    rw [Files.lookup_set_of_ne different]
  · intro place isOther
    rw [WritesAt, not_or] at isOther
    exact Files.lookup_set_of_ne fun same => isOther.2 ⟨beside, ends, same.symm⟩

/-- What becomes of a document. -/
theorem writeDocument_cases (host : Host) (path : Path) (document : Value) :
    (∃ files failure,
      writeDocument path document host = .done { host with files := files } (.error failure) ∧
        TouchesOnly path host.files files ∧ KeepsContent path host.files files) ∨
    ∃ files locks, writeDocument path document host =
        .done { host with files := files, locks := locks } (.ok ()) ∧
      TouchesOnly path host.files files ∧ HoldsDocument path document files := by
  unfold writeDocument writeContent
  rcases makeDirectories_cases host path.parent with ⟨made, result, creates, adds⟩
  have touches := TouchesOnly.of_addsAlong adds
  have keeps : KeepsContent path host.files made := fun _ => adds.file_iff
  cases result with
  | error failure => exact .inl ⟨made, failure, Operation.bind_of_error creates, touches, keeps⟩
  | ok value =>
      rw [Operation.bind_of_ok creates]
      cases ends : path.withEnding unfinishedEnding with
      | error failure => exact .inl ⟨made, failure, rfl, touches, keeps⟩
      | ok beside =>
          have goesOn : (do
              let unfinished ← (Except.ok beside : Except Failure Path)
              changeFiles unfinished (·.write unfinished (Json.indented document))
              moveFile unfinished path : HostOperation Unit) { host with files := made } = (do
                changeFiles beside (·.write beside (Json.indented document))
                moveFile beside path : HostOperation Unit) { host with files := made } := rfl
          rw [goesOn]
          rcases changeFiles_cases { host with files := made } beside
            (·.write beside (Json.indented document)) with
            ⟨failure, fails, _⟩ | ⟨written, writes, checked, isWritten⟩
          · exact .inl ⟨made, failure, Operation.bind_of_error fails, touches, keeps⟩
          · rw [Operation.bind_of_ok writes]
            rcases moveFile_cases { host with files := written } beside path with
              ⟨failure, fails, stays⟩ | ⟨files, locks, moves, checkedToo, isMoved⟩
            · rcases keepsContent_of_not_move ends checked isWritten stays with ⟨keepsToo, same⟩
              refine .inl ⟨written, failure, fails, touches.of_same same, fun content => ?_⟩
              rw [keepsToo content, keeps content]
            · rcases holdsDocument_of_move ends checkedToo isWritten isMoved with ⟨holds, same⟩
              exact .inr ⟨files, locks, moves, touches.of_same same, holds⟩

end Session

end UplinkShaper

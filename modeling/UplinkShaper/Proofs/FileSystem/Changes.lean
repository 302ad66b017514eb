import UplinkShaper.Proofs.FileSystem.Places
import UplinkShaper.Proofs.Results

/-!
What changes when directories are created, a file is written and a file is moved. Directories
come where nothing was, along the path that they are created for; a write changes one place, and
a move the two places that it is between.
-/

namespace UplinkShaper

/-- A path leads past a place if some of its first names lead there. -/
def Path.LeadsPast (path : Path) (place : List String) : Prop :=
  ∃ names, names <+: path.components ∧ ({ path with components := names } : Path).place = place

theorem Path.leadsPast_place (path : Path) : path.LeadsPast path.place :=
  ⟨path.components, List.prefix_rfl, rfl⟩

theorem Path.LeadsPast.of_parent {path : Path} {place : List String}
    (past : path.parent.LeadsPast place) : path.LeadsPast place := by
  rcases past with ⟨names, isPrefix, leads⟩
  exact ⟨names, isPrefix.trans (List.dropLast_prefix _), leads⟩

namespace Files

variable {files files' : Files} {path : Path} {place : List String} {content : String}

/-! ## Created directories -/

/-- Directories were added along a path, and nothing else is different. -/
def AddsAlong (path : Path) (files files' : Files) : Prop :=
  ∀ place, files'.entry? place = files.entry? place ∨
    files.entry? place = none ∧ files'.entry? place = some .directory ∧ path.LeadsPast place

theorem AddsAlong.refl (path : Path) (files : Files) : AddsAlong path files files :=
  fun _ => .inl rfl

theorem AddsAlong.trans {last : Files} (adds : AddsAlong path files files')
    (addsToo : AddsAlong path files' last) : AddsAlong path files last := by
  intro place
  rcases addsToo place with same | ⟨isNew, isDirectory, past⟩
  · rw [same]
    exact adds place
  · rcases adds place with sameToo | ⟨_, isThere, _⟩
    · exact .inr ⟨sameToo ▸ isNew, isDirectory, past⟩
    · rw [isNew] at isThere
      cases isThere

theorem AddsAlong.of_parent (adds : AddsAlong path.parent files files') :
    AddsAlong path files files' :=
  fun place => (adds place).imp_right fun ⟨isNew, isDirectory, past⟩ =>
    ⟨isNew, isDirectory, past.of_parent⟩

theorem AddsAlong.extends (adds : AddsAlong path files files') : files'.Extends files := by
  intro place entry isThere
  rcases adds place with same | ⟨isNew, _⟩
  · rw [same, isThere]
  · rw [isThere] at isNew
    cases isNew

theorem AddsAlong.file_iff (adds : AddsAlong path files files') :
    files'.entry? place = some (.file content) ↔ files.entry? place = some (.file content) := by
  rcases adds place with same | ⟨isNew, isDirectory, _⟩
  · rw [same]
  · simp [isNew, isDirectory]

theorem addsAlong_makeDirectory (made : files.makeDirectory path = .ok files') :
    AddsAlong path files files' := by
  rcases Result.bind_eq_ok.mp made with ⟨place, leads, created⟩
  cases place_of_placeOf leads
  cases isNew : files.entry? path.place with
  | some entry =>
      rw [isNew] at created
      cases created
  | none =>
      rw [isNew] at created
      cases created
      intro other
      by_cases same : path.place = other
      · have below : path.place ≠ [] := by
          intro isRoot
          rw [isRoot] at isNew
          cases isNew
        subst same
        exact .inr ⟨isNew, lookup_set_self below, path.leadsPast_place⟩
      · exact .inl (lookup_set_of_ne same)

/-- Also where the creation is refused halfway. -/
theorem addsAlong_makeUpTo (files : Files) (path : Path) (depth : Nat) :
    AddsAlong path files (files.makeUpTo path depth).files := by
  induction depth generalizing path with
  | zero => exact .refl path files
  | succ depth induction =>
      unfold makeUpTo
      split
      case h_1 made => exact addsAlong_makeDirectory made
      case h_2 =>
        split
        case isTrue => exact .refl path files
        case isFalse =>
          have above := (induction path.parent).of_parent
          dsimp only
          split
          case h_1 => exact above
          case h_2 =>
            split
            case h_1 made => exact above.trans (addsAlong_makeDirectory made)
            case h_2 => exact above
      case h_3 => exact .refl path files

theorem addsAlong_makeDirectories (files : Files) (path : Path) :
    AddsAlong path files (files.makeDirectories path).files :=
  addsAlong_makeUpTo files path _

/-! ## Written files -/

theorem refusing_eq_ok {α : Type} {result : Except FileFault α} {value : α} :
    refusing path result = .ok value ↔ result = .ok value :=
  Result.mapError_eq_ok

theorem read_of_placeOf (leads : files.placeOf path = .ok place)
    (isFile : files.entry? place = some (.file content)) : files.read path = .ok content := by
  simp only [read, leads, bind, Except.bind, isFile, refusing, Except.mapError]

/-- A file is written where a path leads, unless that is a directory. -/
theorem write_eq_ok_iff : files.write path content = .ok files' ↔
    files.placeOf path = .ok path.place ∧ files.entry? path.place ≠ some .directory ∧
      files' = files.set path.place (.file content) := by
  rw [write, refusing_eq_ok]
  constructor
  · intro written
    rcases Result.bind_eq_ok.mp written with ⟨place, writable, isSet⟩
    rcases Result.bind_eq_ok.mp writable with ⟨_, leads, isWritable⟩
    cases place_of_placeOf leads
    split at isWritable
    · cases isWritable
    case h_2 notDirectory =>
      cases isWritable
      exact ⟨leads, notDirectory, (Except.ok.inj isSet).symm⟩
  · rintro ⟨leads, notDirectory, rfl⟩
    have writable : files.writablePlace path = .ok path.place := by
      simp only [writablePlace, leads, bind, Except.bind]
      rfl
    rw [writable]
    rfl

/-- A file that is not in the place of a directory keeps all directories. -/
theorem directory_set (notDirectory : files.entry? place ≠ some .directory) {other : List String}
    (entry : FileEntry) (isDirectory : files.entry? other = some .directory) :
    Files.entry? (files.set place entry) other = some .directory := by
  have different : place ≠ other := fun same => notDirectory (same ▸ isDirectory)
  rw [lookup_set_of_ne different, isDirectory]

/-! ## Moved files -/

/-- What is moved to where a path leads was somewhere else, and no directory is there. -/
theorem move_eq_ok_iff {source target : Path} : files.move source target = .ok files' ↔
    files.placeOf source = .ok source.place ∧ files.placeOf target = .ok target.place ∧
      target.components.getLast? ≠ some ".." ∧ files.entry? target.place ≠ some .directory ∧
        ∃ entry, files.entry? source.place = some entry ∧
          files' = (files.erase source.place).set target.place entry := by
  constructor
  · intro moved
    unfold move at moved
    dsimp only at moved
    split at moved
    · cases moved
    · cases moved
    case h_3 origin place leads leadsToo =>
      cases place_of_placeOf leads
      cases place_of_placeOf leadsToo
      split at moved
      · cases moved
      case isFalse ordinary =>
        split at moved
        · cases moved
        case h_2 entry isThere =>
          split at moved
          · cases moved
          case isFalse notDirectory =>
            cases moved
            exact ⟨leads, leadsToo, ordinary, notDirectory, entry, isThere, rfl⟩
  · rintro ⟨leads, leadsToo, ordinary, notDirectory, entry, isThere, rfl⟩
    simp only [move, leads, leadsToo, if_neg ordinary, isThere, if_neg notDirectory]

end Files

end UplinkShaper

import Mathlib.Data.List.Basic
import UplinkShaper.FileSystem.Files

/-!
Where paths lead. A path that leads somewhere leads to one place only, which its text
tells; files that are added do not change that.
-/

namespace UplinkShaper

namespace Path

/-- Where a name leads from a place. -/
def step (here : List String) (name : String) : List String :=
  if name = ".." then here.dropLast else here ++ [name]

/-- Where a path leads, if it leads anywhere. -/
def place (path : Path) : List String :=
  path.components.foldl step []

theorem place_child {path : Path} {name : String} (ordinary : name ≠ "..") :
    (path.child name).place = path.place ++ [name] := by
  simp [place, child, step, ordinary]

theorem check_child {path : Path} {name : String} (checked : path.check = .ok ())
    (ordinary : name.toList.contains '\x00' = false) : (path.child name).check = .ok () := by
  simp only [check, child, List.any_append, List.any_cons, List.any_nil, ordinary] at checked ⊢
  rw [Bool.or_false, Bool.or_false]
  exact checked

theorem check_eq_ok_iff {path : Path} :
    path.check = .ok () ↔ ∀ name ∈ path.components, '\x00' ∉ name.toList := by
  unfold check
  split
  case isTrue isCut =>
    simp only [List.any_eq_true, List.contains_iff_mem] at isCut
    rcases isCut with ⟨name, member, isNull⟩
    exact ⟨fun impossible => (nomatch impossible), fun none => absurd isNull (none name member)⟩
  case isFalse isWhole =>
    simp only [List.any_eq_true, List.contains_iff_mem, not_exists, not_and] at isWhole
    exact ⟨fun _ => isWhole, fun _ => rfl⟩

theorem mem_of_mem_stem {name : String} {letter : Char} (member : letter ∈ (stem name).toList) :
    letter ∈ name.toList := by
  unfold stem at member
  dsimp only at member
  split at member
  · exact member
  · rw [String.toList_ofList, List.mem_reverse] at member
    exact List.mem_reverse.mp (List.mem_of_mem_drop member)

/-- A path that ends in a name can have another ending, which the system does not cut if it
cuts neither. -/
theorem exists_withEnding {path : Path} {ending : String} (isNamed : path.components ≠ [])
    (checked : path.check = .ok ()) (plain : '\x00' ∉ ending.toList) :
    ∃ beside, path.withEnding ending = .ok beside ∧ beside.check = .ok () := by
  have isLast : path.components.getLast? = some (path.components.getLast isNamed) :=
    List.getLast?_eq_some_getLast isNamed
  refine ⟨_, by rw [withEnding, isLast], check_eq_ok_iff.mpr ?_⟩
  have known := check_eq_ok_iff.mp checked
  intro name member isNull
  rcases List.mem_append.mp member with above | isName
  · exact known name (List.dropLast_subset _ above) isNull
  · rw [List.mem_singleton.mp isName, String.toList_append, List.mem_append] at isNull
    rcases isNull with inStem | inEnding
    · exact known _ (List.getLast_mem isNamed) (mem_of_mem_stem inStem)
    · exact plain inEnding

theorem check_parent {path : Path} (checked : path.check = .ok ()) :
    path.parent.check = .ok () :=
  check_eq_ok_iff.mpr fun name member =>
    check_eq_ok_iff.mp checked name (List.dropLast_subset _ member)

end Path

namespace Files

variable {files files' : Files} {path : Path} {here place : List String}

theorem walk_append (first second : List String) :
    files.walk here (first ++ second) =
      (do files.walk (← files.walk here first) second) := by
  induction first generalizing here with
  | nil => rfl
  | cons name rest induction =>
      simp only [List.cons_append, walk]
      cases files.entry? here with
      | none => rfl
      | some entry =>
          cases entry with
          | file content => rfl
          | directory =>
              dsimp only
              split
              · exact induction
              · split
                · rfl
                · exact induction

theorem foldl_step_of_walk {names : List String} (leads : files.walk here names = .ok place) :
    names.foldl Path.step here = place := by
  induction names generalizing here with
  | nil => exact Except.ok.inj leads
  | cons name rest induction =>
      simp only [walk] at leads
      split at leads
      · cases leads
      · cases leads
      · rw [List.foldl_cons, Path.step]
        split at leads
        case isTrue up =>
          rw [if_pos up]
          exact induction leads
        case isFalse ordinary =>
          split at leads
          · cases leads
          · rw [if_neg ordinary]
            exact induction leads

theorem place_of_placeOf (leads : files.placeOf path = .ok place) : path.place = place :=
  foldl_step_of_walk leads

/-! ## A file in a directory -/

/-- A name that is no step up, and not too long. -/
def IsName (name : String) : Prop :=
  name ≠ ".." ∧ name.utf8ByteSize ≤ longestName

theorem placeOf_child {name : String} (isName : IsName name)
    (leads : files.placeOf path = .ok here) (isDirectory : files.entry? here = some .directory) :
    files.placeOf (path.child name) = .ok (here ++ [name]) := by
  unfold placeOf at leads ⊢
  rw [Path.child, walk_append, leads]
  simp only [bind, Except.bind, walk, isDirectory, if_neg isName.1,
    if_neg (Nat.not_lt.mpr isName.2)]

theorem exists_of_placeOf_child {name : String} (isName : IsName name)
    (leads : files.placeOf (path.child name) = .ok place) :
    ∃ here, files.placeOf path = .ok here ∧ files.entry? here = some .directory ∧
      place = here ++ [name] := by
  unfold placeOf at leads ⊢
  rw [Path.child, walk_append] at leads
  cases above : files.walk [] path.components with
  | error fault =>
      rw [above] at leads
      cases leads
  | ok here =>
      rw [above] at leads
      simp only [bind, Except.bind, walk] at leads
      cases entry : files.entry? here with
      | none =>
          rw [entry] at leads
          cases leads
      | some found =>
          rw [entry] at leads
          cases found with
          | file content => cases leads
          | directory =>
              simp only [if_neg isName.1, if_neg (Nat.not_lt.mpr isName.2)] at leads
              exact ⟨here, rfl, entry, (Except.ok.inj leads).symm⟩

/-! ## Adding files -/

/-- Everything that was there is still there. -/
def Extends (files' files : Files) : Prop :=
  ∀ place entry, files.entry? place = some entry → files'.entry? place = some entry

/-- Where names lead depends on the directories alone. -/
theorem walk_of_directories
    (kept : ∀ place, files.entry? place = some .directory → files'.entry? place = some .directory)
    {names : List String} (leads : files.walk here names = .ok place) :
    files'.walk here names = .ok place := by
  induction names generalizing here with
  | nil => exact leads
  | cons name rest induction =>
      simp only [walk] at leads ⊢
      split at leads
      · cases leads
      · cases leads
      case h_3 isDirectory =>
        rw [kept _ isDirectory]
        dsimp only
        split at leads
        case isTrue up =>
          rw [if_pos up]
          exact induction leads
        case isFalse ordinary =>
          rw [if_neg ordinary]
          split at leads
          · cases leads
          case isFalse short =>
            rw [if_neg short]
            exact induction leads

theorem placeOf_of_directories
    (kept : ∀ place, files.entry? place = some .directory → files'.entry? place = some .directory)
    (leads : files.placeOf path = .ok place) : files'.placeOf path = .ok place :=
  walk_of_directories kept leads

theorem placeOf_of_extends (more : files'.Extends files)
    (leads : files.placeOf path = .ok place) : files'.placeOf path = .ok place :=
  placeOf_of_directories (fun place => more place .directory) leads

theorem lookup_of_ne_nil {other : List String} (below : other ≠ []) :
    files.entry? other = (files.entries.find? fun known => known.1 == other).map (·.2) := by
  cases other with
  | nil => exact absurd rfl below
  | cons name rest => rfl

theorem lookup_erase_self (below : place ≠ []) : Files.entry? (files.erase place) place = none := by
  rw [lookup_of_ne_nil below, Option.map_eq_none_iff, List.find?_eq_none]
  intro known isLeft
  simpa using (List.mem_filter.mp isLeft).2

theorem lookup_erase_of_ne {other : List String} (different : place ≠ other) :
    Files.entry? (files.erase place) other = files.entry? other := by
  by_cases below : other = []
  · rw [below]
    rfl
  · rw [lookup_of_ne_nil below, lookup_of_ne_nil below, erase, List.find?_filter]
    apply congrArg (Option.map _ <| List.find? · files.entries)
    funext known
    by_cases same : known.1 = other
    · simp [same, different.symm]
    · simp [same]

theorem entries_set (entry : FileEntry) :
    (files.set place entry).entries = (place, entry) :: (files.erase place).entries := rfl

theorem lookup_set_self {entry : FileEntry} (below : place ≠ []) :
    Files.entry? (files.set place entry) place = some entry := by
  rw [lookup_of_ne_nil below, entries_set, List.find?_cons, beq_self_eq_true]
  rfl

theorem lookup_set_of_ne {entry : FileEntry} {other : List String} (different : place ≠ other) :
    Files.entry? (files.set place entry) other = files.entry? other := by
  refine Eq.trans ?_ (lookup_erase_of_ne different)
  by_cases below : other = []
  · rw [below]
    rfl
  · have differs : (place == other) = false := by simpa using different
    rw [lookup_of_ne_nil below, lookup_of_ne_nil below, entries_set, List.find?_cons, differs]

theorem extends_set {entry : FileEntry} (isNew : files.entry? place = none) :
    (files.set place entry).Extends files := by
  intro other found isFound
  have different : place ≠ other := by
    rintro rfl
    rw [isNew] at isFound
    cases isFound
  rw [lookup_set_of_ne different, isFound]

/-- A file that was touched is there, with all that was there before. -/
theorem exists_of_touch (touched : files.touch path = .ok files') :
    ∃ place content, files.placeOf path = .ok place ∧
      files'.entry? place = some (.file content) ∧ files'.Extends files := by
  unfold touch writablePlace at touched
  cases leads : files.placeOf path with
  | error fault =>
      rw [leads] at touched
      cases touched
  | ok place =>
      rw [leads] at touched
      simp only [bind, Except.bind, refusing] at touched
      cases entry : files.entry? place with
      | none =>
          have below : place ≠ [] := by
            rintro rfl
            cases entry
          simp only [pure, Except.pure, entry] at touched
          cases touched
          exact ⟨place, "", rfl, lookup_set_self below, extends_set entry⟩
      | some found =>
          rw [entry] at touched
          cases found with
          | directory => cases touched
          | file content =>
              simp only [pure, Except.pure, entry] at touched
              cases touched
              exact ⟨place, content, rfl, entry, fun _ _ same => same⟩

theorem touch_of_file {content : String} (leads : files.placeOf path = .ok place)
    (isFile : files.entry? place = some (.file content)) : files.touch path = .ok files := by
  simp only [touch, writablePlace, leads, bind, Except.bind, isFile, refusing, pure, Except.pure]
  rfl

theorem makeDirectories_of_directory (leads : files.placeOf path = .ok place)
    (isDirectory : files.entry? place = some .directory) :
    files.makeDirectories path = { files := files, refusal := none } := by
  have exists' : files.makeDirectory path = .error .exists := by
    simp only [makeDirectory, leads, bind, Except.bind, isDirectory]
  have found : files.isDirectory path = true := by
    simp only [Files.isDirectory, find?, leads, isDirectory]
    rfl
  rw [makeDirectories, makeUpTo, exists']
  simp only [tolerate, found]
  rfl

end Files

end UplinkShaper

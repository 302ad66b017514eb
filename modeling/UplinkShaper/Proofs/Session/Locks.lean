import UplinkShaper.Proofs.FileSystem.Changes
import UplinkShaper.Proofs.Session.Early

/-!
The locks of a session, case by case. They are files in the directory of the saved state, so
sessions whose states are saved in one directory contend for the same ones.
-/

namespace UplinkShaper

namespace Host

variable {host : Host} {path : Path}

/-- Failures of a step before a lock is looked at. -/
def FailsUnlocked (failure : Failure) : Prop :=
  IsRefusalOr (fun failure => failure.isEarly = false) failure

theorem makeDirectories_eq_of_some {error : SystemError} (checked : path.check = .ok ())
    (refuses : (host.files.makeDirectories path).refusal = some error) :
    makeDirectories path host =
      .done { host with files := (host.files.makeDirectories path).files }
        (.error (.system error)) := by
  rw [makeDirectories, checked]
  refine (Operation.bind_of_ok rfl).trans ?_
  rw [Operation.get_bind_apply, Operation.set_bind_apply, refuses]
  rfl

theorem makeDirectories_eq_of_none (checked : path.check = .ok ())
    (creates : (host.files.makeDirectories path).refusal = none) :
    makeDirectories path host =
      .done { host with files := (host.files.makeDirectories path).files } (.ok ()) := by
  rw [makeDirectories, checked]
  refine (Operation.bind_of_ok rfl).trans ?_
  rw [Operation.get_bind_apply, Operation.set_bind_apply, creates]
  rfl

/-- Whether or not it succeeds, the creation of directories only adds them. -/
theorem makeDirectories_cases (host : Host) (path : Path) :
    ∃ files result, makeDirectories path host = .done { host with files := files } result ∧
      Files.AddsAlong path host.files files := by
  cases checked : path.check with
  | error failure =>
      refine ⟨host.files, .error failure, ?_, .refl path host.files⟩
      rw [makeDirectories, checked]
      rfl
  | ok value =>
      have adds := Files.addsAlong_makeDirectories host.files path
      cases refusal : (host.files.makeDirectories path).refusal with
      | some error => exact ⟨_, _, makeDirectories_eq_of_some checked refusal, adds⟩
      | none => exact ⟨_, _, makeDirectories_eq_of_none checked refusal, adds⟩

theorem exists_makeDirectories (host : Host) (path : Path) :
    ∃ files result, makeDirectories path host = .done { host with files := files } result ∧
      ∀ failure, result = .error failure → FailsUnlocked failure := by
  have within := FailsWithin.makeDirectories path.failsLate_check host
  change (makeDirectories path host).Keeps .loose _ at within
  rcases makeDirectories_cases host path with ⟨files, result, creates, _⟩
  rw [creates] at within
  exact ⟨files, result, creates, within⟩

theorem changeFiles_eq {change : Files → Except SystemError Files} {files : Files}
    (checked : path.check = .ok ()) (changed : change host.files = .ok files) :
    changeFiles path change host = .done { host with files := files } (.ok ()) := by
  rw [changeFiles, checked]
  refine (Operation.bind_of_ok rfl).trans ?_
  rw [Operation.get_bind_apply, changed]
  rfl

theorem changeFiles_eq_error {failure : Failure} (refused : path.check = .error failure)
    (change : Files → Except SystemError Files) :
    changeFiles path change host = .done host (.error failure) := by
  rw [changeFiles, refused]
  rfl

/-- Files are changed, unless the path or the change is refused. -/
theorem changeFiles_cases (host : Host) (path : Path)
    (change : Files → Except SystemError Files) :
    (∃ failure, changeFiles path change host = .done host (.error failure) ∧
      (path.check = .ok () → ∀ files, change host.files ≠ .ok files)) ∨
    ∃ files, changeFiles path change host = .done { host with files := files } (.ok ()) ∧
      path.check = .ok () ∧ change host.files = .ok files := by
  cases checked : path.check with
  | error failure => exact .inl ⟨failure, changeFiles_eq_error checked change, nofun⟩
  | ok value =>
      cases changed : change host.files with
      | ok files => exact .inr ⟨files, changeFiles_eq checked changed, rfl, rfl⟩
      | error error =>
          refine .inl ⟨.system error, ?_, nofun⟩
          rw [changeFiles, checked]
          refine (Operation.bind_of_ok rfl).trans ?_
          rw [Operation.get_bind_apply, changed]
          rfl

theorem exists_changeFiles (host : Host) (path : Path)
    (change : Files → Except SystemError Files) :
    (∃ failure, changeFiles path change host = .done host (.error failure) ∧
      FailsUnlocked failure) ∨
    ∃ files, changeFiles path change host = .done { host with files := files } (.ok ()) ∧
      change host.files = .ok files := by
  have within := FailsWithin.changeFiles change path.failsLate_check host
  change (changeFiles path change host).Keeps .loose _ at within
  rcases changeFiles_cases host path change with ⟨failure, fails, _⟩ | ⟨files, changes, _, changed⟩
  · rw [fails] at within
    exact .inl ⟨failure, fails, within _ rfl⟩
  · exact .inr ⟨files, changes, changed⟩

theorem makeDirectories_eq {made : Files} (checked : path.check = .ok ())
    (creates : host.files.makeDirectories path = ⟨made, none⟩) :
    makeDirectories path host = .done { host with files := made } (.ok ()) := by
  rw [makeDirectories_eq_of_none checked (by rw [creates]), creates]

theorem touch_eq {files : Files} (checked : path.check = .ok ())
    (touches : host.files.touch path = .ok files) :
    touch path host = .done { host with files := files } (.ok ()) :=
  changeFiles_eq checked touches

theorem lock_eq {holder : LockHolder} {place : List String}
    (leads : host.files.placeOf path = .ok place) :
    lock holder path host =
      .done { host with locks := { place := place, holder := holder } :: host.locks }
        (.ok ()) := by
  refine congrArg (Procedure.done · (.ok ())) ?_
  dsimp only
  rw [leads]

theorem isLocked_eq {place : List String} (leads : host.files.placeOf path = .ok place) :
    host.isLocked path = host.locks.any (·.place == place) := by
  rw [isLocked, leads]

end Host

namespace Session

open Host

variable {host : Host} {id : SessionId} {session : Session}

theorem isName_lock : Files.IsName "reconfigure.lock" :=
  ⟨by decide, by decide⟩

theorem readerLock_place (session : Session) :
    session.readerLock.place = session.lockDirectory.place ++ ["read.lock"] :=
  Path.place_child (by decide)

theorem writerLock_place (session : Session) :
    session.writerLock.place = session.lockDirectory.place ++ ["reconfigure.lock"] :=
  Path.place_child isName_lock.1

/-- A host on which a session has taken its locks, which nobody had held. -/
structure HasTaken (host : Host) (id : SessionId) (session : Session) (host' : Host) : Prop where
  others : { host' with files := host.files, locks := host.locks } = host
  directory : host'.files.entry? session.lockDirectory.place = some .directory
  writer : ∃ content, host'.files.entry? session.writerLock.place = some (.file content)
  locks : host'.locks = ⟨session.readerLock.place, .session id⟩ ::
    ⟨session.writerLock.place, .session id⟩ :: host.locks
  free : ∀ lock ∈ host.locks, lock.place ≠ session.writerLock.place

/-- The locks are taken, or someone holds the writer lock, or something else fails. -/
theorem takeLocks_cases (host : Host) (id : SessionId) (session : Session) :
    (∃ host' failure, takeLocks id session host = .done host' (.error failure) ∧
      FailsUnlocked failure) ∨
    (∃ host', takeLocks id session host =
        .done host' (.error (.busy (.lockHeld session.writerLock.text))) ∧
      ∃ lock ∈ host.locks, lock.place = session.writerLock.place) ∨
    ∃ host', takeLocks id session host = .done host' (.ok ()) ∧ HasTaken host id session host' := by
  unfold takeLocks touch
  rcases exists_makeDirectories host session.lockDirectory with
    ⟨made, failure | ⟨⟨⟩⟩, creates, refused⟩
  · exact .inl ⟨_, failure, Operation.bind_of_error creates, refused failure rfl⟩
  rw [Operation.bind_of_ok creates]
  rcases exists_changeFiles { host with files := made } session.writerLock _ with
    ⟨failure, fails, refused⟩ | ⟨touched, touches, isTouched⟩
  · exact .inl ⟨_, failure, Operation.bind_of_error fails, refused⟩
  rw [Operation.bind_of_ok touches]
  rcases Files.exists_of_touch isTouched with ⟨place, content, leads, isFile, more⟩
  cases Files.place_of_placeOf leads
  have leadsLater := Files.placeOf_of_extends more leads
  let host₁ : Host := { host with files := touched }
  have looks : ∀ next : Host → HostOperation Unit, (get >>= next) host₁ = next host₁ host₁ :=
    fun _ => rfl
  rw [looks]
  have held := @isLocked_eq host₁ session.writerLock _ leadsLater
  cases isLocked : host₁.isLocked session.writerLock with
  | true =>
      rw [isLocked, eq_comm, List.any_eq_true] at held
      rcases held with ⟨lock, isHeld, same⟩
      exact .inr (.inl ⟨host₁, rfl, lock, isHeld, eq_of_beq same⟩)
  | false =>
      rw [isLocked, eq_comm, List.any_eq_false] at held
      simp only [Bool.false_eq_true, if_false]
      rw [Operation.bind_of_ok (lock_eq leadsLater)]
      let host₂ : Host :=
        { host₁ with locks := ⟨session.writerLock.place, .session id⟩ :: host₁.locks }
      rcases exists_changeFiles host₂ session.readerLock _ with
        ⟨failure, fails, refused⟩ | ⟨files, touchesToo, isTouchedToo⟩
      · exact .inl ⟨_, failure, Operation.bind_of_error fails, refused⟩
      rw [Operation.bind_of_ok touchesToo]
      rcases Files.exists_of_touch isTouchedToo with ⟨_, _, leadsToo, _, moreToo⟩
      cases Files.place_of_placeOf leadsToo
      refine .inr (.inr ⟨_, lock_eq (Files.placeOf_of_extends moreToo leadsToo), ?_⟩)
      rcases Files.exists_of_placeOf_child isName_lock
        (Files.placeOf_of_extends moreToo leadsLater) with ⟨directory, above, isDirectory, _⟩
      cases Files.place_of_placeOf above
      exact {
        others := rfl
        directory := isDirectory
        writer := ⟨content, moreToo _ _ isFile⟩
        locks := rfl
        free := fun lock isHeld same => held lock isHeld (beq_iff_eq.mpr same) }

theorem exists_takeLocks (lockable : session.IsLockable host) :
    ∃ host', takeLocks id session host = .done host' (.ok ()) ∧
      host'.sessions = host.sessions := by
  have locks : (takeLocks id session).Ends (Machine.answer .none)
      (⟨.untouched, 0, none⟩ : Machine) host fun _ _ result => result = .ok () :=
    ends_takeLocks lockable
  rcases (isQuiet_takeLocks id session).exists_done host with ⟨host', result, taken, sessions⟩
  have succeeded : result = .ok () := by
    rw [Operation.Ends, Operation.run, taken] at locks
    exact locks
  exact ⟨host', succeeded ▸ taken, sessions⟩

/-- Where the files for the locks are there and the writer lock is held, nothing happens. -/
theorem takeLocks_eq_of_held {directory : List String} {content : String}
    (checked : session.lockDirectory.check = .ok ())
    (leads : host.files.placeOf session.lockDirectory = .ok directory)
    (isDirectory : host.files.entry? directory = some .directory)
    (isFile : host.files.entry? (directory ++ ["reconfigure.lock"]) = some (.file content))
    (isHeld : ∃ lock ∈ host.locks, lock.place = directory ++ ["reconfigure.lock"]) :
    takeLocks id session host =
      .done host (.error (.busy (.lockHeld session.writerLock.text))) := by
  have leadsToLock : host.files.placeOf session.writerLock =
      .ok (directory ++ ["reconfigure.lock"]) :=
    Files.placeOf_child isName_lock leads isDirectory
  have locked : host.isLocked session.writerLock = true := by
    rcases isHeld with ⟨lock, isHeld, same⟩
    rw [isLocked_eq leadsToLock]
    exact List.any_eq_true.mpr ⟨lock, isHeld, beq_iff_eq.mpr same⟩
  have creates := makeDirectories_eq checked (Files.makeDirectories_of_directory leads isDirectory)
  have checkedLock : session.writerLock.check = .ok () := Path.check_child checked (by decide)
  have touches := touch_eq checkedLock (Files.touch_of_file leadsToLock isFile)
  unfold takeLocks
  rw [Operation.bind_of_ok creates, Operation.bind_of_ok touches]
  change (if host.isLocked session.writerLock = true then _ else _ : HostOperation Unit) host = _
  rw [if_pos locked]
  rfl

end Session

end UplinkShaper

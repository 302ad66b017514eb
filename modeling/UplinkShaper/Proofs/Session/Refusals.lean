import UplinkShaper.Proofs.Session.Work

/-!
What the system may refuse. Files and directories that cannot be made are refusals; besides
them, only paths fail that lead nowhere. Saving what was applied keeps all refusals to
itself.
-/

namespace UplinkShaper

/-- A refusal of the system, or a failure of another kind that is allowed. -/
def IsRefusalOr (allowed : Failure → Prop) (failure : Failure) : Prop :=
  allowed failure ∨ ∃ error, failure = .system error

namespace Path

theorem failsLate_check (path : Path) : FailsLate path.check := by
  unfold check
  split
  · exact .error rfl
  · exact .ok ()

theorem failsLate_withEnding (path : Path) (ending : String) :
    FailsLate (path.withEnding ending) := by
  unfold withEnding
  split
  · exact .error rfl
  · exact .ok _

end Path

/-- An operation that fails in allowed ways only. -/
def FailsWithin (allowed : Failure → Prop) (operation : HostOperation α) : Prop :=
  ∀ host, operation.Keeps .loose host fun _ result =>
    ∀ failure, result = .error failure → allowed failure

namespace FailsWithin

variable {allowed : Failure → Prop}

theorem ok (value : α) : FailsWithin allowed (pure value : HostOperation α) :=
  fun _ _ impossible => nomatch impossible

theorem bind {first : HostOperation α} {next : α → HostOperation β}
    (within : FailsWithin allowed first) (nextWithin : ∀ value, FailsWithin allowed (next value)) :
    FailsWithin allowed (first >>= next) := by
  intro host
  apply (within host).bind
  · exact fun host' value _ => nextWithin value host'
  · rintro _ failure failed _ ⟨⟩
    exact failed failure rfl

theorem get : FailsWithin allowed (MonadState.get : HostOperation Host) :=
  fun _ _ impossible => nomatch impossible

theorem set (host : Host) : FailsWithin allowed (MonadStateOf.set host : HostOperation PUnit) :=
  fun _ _ impossible => nomatch impossible

theorem modify (change : Host → Host) :
    FailsWithin allowed (modify change : HostOperation Unit) :=
  fun _ _ impossible => nomatch impossible

theorem refuse (error : SystemError) :
    FailsWithin (IsRefusalOr allowed) (throw (.system error) : HostOperation α) := by
  rintro _ _ ⟨⟩
  exact .inr ⟨error, rfl⟩

/-- A path that is not refused before is handed to the system. -/
theorem check {path : Path} (checked : ∀ failure, path.check = .error failure → allowed failure) :
    FailsWithin (IsRefusalOr allowed) (Operation.ofResult path.check : HostOperation Unit) :=
  fun _ failure failed => .inl (checked failure failed)

theorem changeFiles {path : Path} (change : Files → Except SystemError Files)
    (checked : ∀ failure, path.check = .error failure → allowed failure) :
    FailsWithin (IsRefusalOr allowed) (Host.changeFiles path change) := by
  refine (check checked).bind fun _ => get.bind fun host => ?_
  cases change host.files with
  | ok files => exact set _
  | error error => exact refuse error

theorem makeDirectories {path : Path}
    (checked : ∀ failure, path.check = .error failure → allowed failure) :
    FailsWithin (IsRefusalOr allowed) (Host.makeDirectories path) := by
  refine (check checked).bind fun _ => get.bind fun host => (set _).bind fun _ => ?_
  cases (host.files.makeDirectories path).refusal with
  | none => exact ok ()
  | some error => exact refuse error

theorem moveFile (source : Path) {target : Path}
    (checked : ∀ failure, target.check = .error failure → allowed failure) :
    FailsWithin (IsRefusalOr allowed) (Host.moveFile source target) := by
  refine get.bind fun before => (changeFiles _ checked).bind fun _ => ?_
  cases before.files.placeOf source with
  | error fault => exact ok ()
  | ok origin =>
      cases before.files.placeOf target with
      | error fault => exact ok ()
      | ok place => exact modify _

/-- The path of a document fails in allowed ways only, and so do those that writing it
needs. -/
structure IsWritable (allowed : Failure → Prop) (path : Path) : Prop where
  parent : ∀ failure, path.parent.check = .error failure → allowed failure
  ending : ∀ failure, path.withEnding Session.unfinishedEnding = .error failure → allowed failure
  unfinished : ∀ beside failure, path.withEnding Session.unfinishedEnding = .ok beside →
    beside.check = .error failure → allowed failure
  target : ∀ failure, path.check = .error failure → allowed failure

theorem writeDocument {path : Path} (writable : IsWritable allowed path) (document : Value) :
    FailsWithin (IsRefusalOr allowed) (Session.writeDocument path document) := by
  refine (makeDirectories writable.parent).bind fun _ => ?_
  cases beside : path.withEnding Session.unfinishedEnding with
  | error failure =>
      rintro host _ ⟨⟩
      exact .inl (writable.ending failure beside)
  | ok unfinished =>
      have written : FailsWithin (IsRefusalOr allowed) (do
          Host.writeContent unfinished (Json.indented document)
          Host.moveFile unfinished path) :=
        (changeFiles _ fun failure => writable.unfinished unfinished failure beside).bind fun _ =>
          moveFile _ writable.target
      exact fun host => written host

end FailsWithin

namespace Session

open Host

variable {host : Host} {id : SessionId} {session : Session} {allowed : Failure → Prop}

/-- Saving what is applied compiles nothing. -/
theorem save_eq (known : host.sessions[id]? = some session)
    (isApplied : session.applied.isSome = true) :
    ∃ document, save id none false host = (do
      writeDocument session.settings.statePath document
      record (.info s!"Saved shaping state to {session.settings.statePath.text}")
      return session.settings.statePath : HostOperation Path) host := by
  rcases Option.isSome_iff_exists.mp isApplied with ⟨applied, isSome⟩
  have described : describe id host = .done host (.ok (session.description applied.compiled)) := by
    rw [describe, session_bind_apply known, isSome]
    rfl
  let document := session.description applied.compiled ++ [("saved_at", .text host.now.text)] ++ []
  refine ⟨.record document, (Operation.bind_of_ok described).trans ?_⟩
  exact session_bind_apply known

/-- Whatever the system refuses, nothing more than that is logged. -/
theorem keeps_persist (known : host.sessions[id]? = some session)
    (isApplied : session.applied.isSome = true)
    (writable : FailsWithin.IsWritable allowed session.settings.statePath) :
    (persist id).Keeps .loose host fun _ result =>
      ∀ failure, result = .error failure → allowed failure := by
  rcases save_eq known isApplied with ⟨document, saves⟩
  have written : FailsWithin (IsRefusalOr allowed) (do
      writeDocument session.settings.statePath document
      record (.info s!"Saved shaping state to {session.settings.statePath.text}")
      return session.settings.statePath : HostOperation Path) :=
    (FailsWithin.writeDocument writable document).bind fun _ => (FailsWithin.modify _).bind fun _ =>
      FailsWithin.ok _
  have saved : (save id none false).Keeps .loose host fun _ result =>
      ∀ failure, result = .error failure → IsRefusalOr allowed failure := by
    change (save id none false host).Keeps .loose _
    rw [saves]
    exact written host
  have ignored : (do let _ ← save id none false : HostOperation Unit).Keeps .loose host
      fun _ result => ∀ failure, result = .error failure → IsRefusalOr allowed failure := by
    apply saved.bind
    · exact fun _ _ _ _ impossible => nomatch impossible
    · rintro _ failure failed _ ⟨⟩
      exact failed failure rfl
  apply ignored.tryCatch
  · exact fun _ _ _ _ impossible => nomatch impossible
  · intro host' failure failed
    rcases failed failure rfl with isAllowed | ⟨error, rfl⟩
    · cases failure with
      | system error => exact fun _ impossible => nomatch impossible
      | _ =>
          rintro _ ⟨⟩
          exact isAllowed
    · exact fun _ impossible => nomatch impossible

end Session

end UplinkShaper

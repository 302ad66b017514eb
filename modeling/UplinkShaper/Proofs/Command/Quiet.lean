import UplinkShaper.Host
import UplinkShaper.Proofs.Command.Endings

/-!
Operations that run no command and change no session: those that log, read and write
files, and take locks. Whoever answers commands does not notice them.
-/

namespace UplinkShaper

/-- An operation that runs no command and leaves the sessions as they are. -/
def Operation.IsQuiet (operation : HostOperation α) : Prop :=
  ∀ (ρ : Type) (responder : Procedure.Responder ρ Host) (memory : ρ) (host : Host),
    operation.Ends responder memory host fun memory' host' _ =>
      memory' = memory ∧ host'.sessions = host.sessions

namespace Operation

theorem isQuiet_ofResult (result : Except Failure α) :
    (ofResult result : HostOperation α).IsQuiet :=
  fun _ _ _ _ => ⟨rfl, rfl⟩

theorem isQuiet_get : (get : HostOperation Host).IsQuiet :=
  fun _ _ _ _ => ⟨rfl, rfl⟩

theorem isQuiet_get_bind {next : Host → HostOperation α}
    (quiet : ∀ (ρ : Type) (responder : Procedure.Responder ρ Host) (memory : ρ) (host : Host),
      (next host).Ends responder memory host fun memory' host' _ =>
        memory' = memory ∧ host'.sessions = host.sessions) : (get >>= next).IsQuiet :=
  quiet

theorem isQuiet_modify {change : Host → Host}
    (keeps : ∀ host, (change host).sessions = host.sessions) :
    (modify change : HostOperation Unit).IsQuiet :=
  fun _ _ _ host => ⟨rfl, keeps host⟩

theorem IsQuiet.bind {first : HostOperation α} {next : α → HostOperation β}
    (quiet : first.IsQuiet) (nextQuiet : ∀ value, (next value).IsQuiet) :
    (first >>= next).IsQuiet := by
  intro ρ responder memory host
  refine (quiet ρ responder memory host).bind ?_ (fun _ _ _ same => same)
  rintro memory' host' value ⟨rfl, same⟩
  apply (nextQuiet value ρ responder memory' host').weaken
  rintro _ _ _ ⟨unchanged, sameLater⟩
  exact ⟨unchanged, sameLater.trans same⟩

theorem IsQuiet.tryCatch {body : HostOperation α} {handle : Failure → HostOperation α}
    (quiet : body.IsQuiet) (handleQuiet : ∀ failure, (handle failure).IsQuiet) :
    (tryCatch body handle).IsQuiet := by
  intro ρ responder memory host
  refine (quiet ρ responder memory host).tryCatch (fun _ _ _ same => same) ?_
  rintro memory' host' failure ⟨rfl, same⟩
  apply (handleQuiet failure ρ responder memory' host').weaken
  rintro _ _ _ ⟨unchanged, sameLater⟩
  exact ⟨unchanged, sameLater.trans same⟩

end Operation

namespace Host

open Operation

/-! ## Logs, files and locks -/

@[simp]
theorem logged_sessions (host : Host) (record : LogRecord) :
    (host.logged record).sessions = host.sessions := by
  simp only [logged]
  split
  · rfl
  · rfl

theorem isQuiet_record (shown : LogRecord) : (record shown).IsQuiet :=
  isQuiet_modify fun host => logged_sessions host shown

/-- Records change the log and nothing else. -/
theorem exists_foldl_logged (records : List LogRecord) (host : Host) :
    ∃ log, records.foldl logged host = { host with log := log } := by
  induction records generalizing host with
  | nil => exact ⟨host.log, rfl⟩
  | cons shown rest induction =>
      rcases induction (host.logged shown) with ⟨log, equal⟩
      refine ⟨log, ?_⟩
      rw [List.foldl_cons, equal]
      simp only [logged]
      split
      · rfl
      · rfl

theorem isQuiet_recordAll (records : List LogRecord) : (recordAll records).IsQuiet := by
  apply isQuiet_modify
  intro host
  rcases exists_foldl_logged records host with ⟨log, equal⟩
  rw [equal]

theorem isQuiet_changeFiles (path : Path) (change : Files → Except SystemError Files) :
    (changeFiles path change).IsQuiet := by
  refine (isQuiet_ofResult _).bind fun _ => isQuiet_get_bind fun ρ responder memory host => ?_
  cases change host.files with
  | ok files => exact ⟨rfl, rfl⟩
  | error error => exact ⟨rfl, rfl⟩

theorem isQuiet_makeDirectories (path : Path) : (makeDirectories path).IsQuiet := by
  refine (isQuiet_ofResult _).bind fun _ => isQuiet_get_bind fun ρ responder memory host => ?_
  apply ends_set_bind.mpr
  cases (host.files.makeDirectories path).refusal with
  | some error => exact ⟨rfl, rfl⟩
  | none => exact ⟨rfl, rfl⟩

theorem isQuiet_moveFile (source target : Path) : (moveFile source target).IsQuiet := by
  refine isQuiet_get.bind fun before => (isQuiet_changeFiles _ _).bind fun _ => ?_
  cases before.files.placeOf source with
  | error fault => exact isQuiet_ofResult _
  | ok origin =>
      cases before.files.placeOf target with
      | error fault => exact isQuiet_ofResult _
      | ok place => exact isQuiet_modify fun _ => rfl

theorem isQuiet_lock (holder : LockHolder) (path : Path) : (lock holder path).IsQuiet := by
  apply isQuiet_modify
  intro host
  cases host.files.placeOf path with
  | ok place => rfl
  | error fault => rfl

theorem isQuiet_session (id : SessionId) : (session id).IsQuiet := by
  apply isQuiet_get.bind
  intro host
  cases host.sessions[id]? with
  | none => exact isQuiet_ofResult _
  | some session => exact isQuiet_ofResult _

end Host

end UplinkShaper

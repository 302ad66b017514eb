import UplinkShaper.Proofs.Command.Quiet
import UplinkShaper.Session.Reconfiguration

/-!
What sessions do quietly: they compile settings, save what they applied and take locks
without a command.
-/

namespace UplinkShaper

namespace Session

open Operation Host

theorem isQuiet_compileWith (id : SessionId) (settings : Settings) :
    (compileWith id settings).IsQuiet :=
  (isQuiet_session id).bind fun _ => (isQuiet_recordAll _).bind fun _ => isQuiet_ofResult _

theorem isQuiet_describe (id : SessionId) : (describe id).IsQuiet := by
  refine (isQuiet_session id).bind fun session => ?_
  cases session.applied with
  | some applied => exact isQuiet_ofResult _
  | none =>
      refine IsQuiet.bind ?_ fun _ => isQuiet_ofResult _
      exact (isQuiet_session id).bind fun session => isQuiet_compileWith id session.settings

theorem isQuiet_writeDocument (path : Path) (document : Value) :
    (writeDocument path document).IsQuiet :=
  (isQuiet_makeDirectories _).bind fun _ => (isQuiet_ofResult _).bind fun _ =>
    (isQuiet_changeFiles _ _).bind fun _ => isQuiet_moveFile _ _

/-- Saving without listings. -/
theorem isQuiet_save (id : SessionId) (target : Option Path) : (save id target false).IsQuiet :=
  (isQuiet_describe id).bind fun _ => isQuiet_get.bind fun _ => (isQuiet_ofResult _).bind fun _ =>
    (isQuiet_session id).bind fun _ => (isQuiet_writeDocument _ _).bind fun _ =>
      (isQuiet_record _).bind fun _ => isQuiet_ofResult _

theorem isQuiet_persist (id : SessionId) : (persist id).IsQuiet := by
  apply IsQuiet.tryCatch ((isQuiet_save id none).bind fun _ => isQuiet_ofResult _)
  intro failure
  cases failure with
  | system error => exact isQuiet_record _
  | _ => exact isQuiet_ofResult _

theorem isQuiet_takeLocks (id : SessionId) (session : Session) :
    (takeLocks id session).IsQuiet := by
  refine (isQuiet_makeDirectories _).bind fun _ => (isQuiet_changeFiles _ _).bind fun _ =>
    isQuiet_get.bind fun host => ?_
  have rest : (do
      lock (.session id) session.writerLock
      touch session.readerLock
      lock (.session id) session.readerLock : HostOperation Unit).IsQuiet :=
    (isQuiet_lock _ _).bind fun _ => (isQuiet_changeFiles _ _).bind fun _ => isQuiet_lock _ _
  cases host.isLocked session.writerLock with
  | true => exact (isQuiet_ofResult _).bind fun _ => rest
  | false => exact rest

end Session

end UplinkShaper

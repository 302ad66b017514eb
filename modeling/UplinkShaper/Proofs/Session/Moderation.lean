import UplinkShaper.Proofs.Allocation.Moderation
import UplinkShaper.Proofs.Config.Complaints
import UplinkShaper.Proofs.Session.Locks

/-!
Sessions with moderate settings. The settings compile, or a failure of the library's own says
why they do not; a session is made for them in either case. Where the files for its locks can
be made a session takes its locks, unless someone else holds them.
-/

namespace UplinkShaper

/-! ## Failures of the library's own -/

/-- Whether a failure is one that the library raises on purpose. -/
def Failure.isOwn : Failure → Bool
  | .configuration _ | .allocation _ | .curve _ | .apply _ | .listing _ | .busy _
  | .precondition _ => true
  | _ => false

namespace Result

/-- A result that is a value or a failure of the library's own. -/
def IsAnswer (result : Except Failure α) : Prop :=
  ∀ failure, result = .error failure → failure.isOwn = true

theorem isAnswer_ok (value : α) : IsAnswer (.ok value : Except Failure α) :=
  fun _ impossible => nomatch impossible

theorem isAnswer_error {failure : Failure} (isOwn : failure.isOwn = true) :
    IsAnswer (.error failure : Except Failure α) := by
  rintro _ ⟨⟩
  exact isOwn

theorem IsAnswer.bind {result : Except Failure α} {next : α → Except Failure β}
    (answers : IsAnswer result) (nextAnswers : ∀ value, IsAnswer (next value)) :
    IsAnswer (result >>= next) := by
  cases result with
  | ok value => exact nextAnswers value
  | error failure => exact isAnswer_error (answers failure rfl)

theorem IsDecision.isAnswer {result : Except Failure α} (decision : IsDecision result) :
    IsAnswer result := by
  rcases decision with ⟨value, rfl⟩ | ⟨error, rfl⟩
  · exact isAnswer_ok value
  · exact isAnswer_error rfl

end Result

theorem Surfaces.isAnswer {result : Except Failure α} (surfaces : Surfaces result) :
    Result.IsAnswer result := by
  intro failure failed
  have isConfiguration := surfaces failure failed
  cases failure with
  | configuration error => rfl
  | _ => cases isConfiguration

open Result

/-! ## Rules -/

theorem MatchSpec.surfaces_expand (spec : MatchSpec) : Surfaces spec.expand := by
  unfold expand
  split
  · have listed : ∀ item, Surfaces (checkAddress item) := by
      intro item
      unfold checkAddress
      split
      · exact .ok ()
      · exact .error _
    have split : Surfaces (splitAddresses (.text (spec.address.getD ""))) :=
      Surfaces.bind (.ok _) fun _ _ => (Surfaces.forM fun item _ => listed item).bind
        fun _ _ => .ok _
    exact split.bind fun _ _ => .ok _
  · exact .ok _

/-- Rules are built, or the configuration is at fault. -/
theorem RuleSet.surfaces_build (tree : ClassTree) (table : MatchTable) :
    Surfaces (build tree table) := by
  have entries : ∀ tier, Surfaces (entryOf tree table tier) := by
    intro tier
    unfold entryOf
    dsimp only
    split
    · split
      · exact .ok _
      · exact .error _
    · exact (Surfaces.mapM fun spec _ => spec.surfaces_expand).bind fun _ _ => .ok _
  unfold build
  split
  · exact (Surfaces.mapM fun tier _ => entries tier).bind fun _ _ => .ok _
  · exact .error _

/-! ## Settings -/

theorem TierSpec.isModerate_iff {spec : TierSpec} : spec.IsModerate ↔
    (∃ number ∈ number? spec.id, number.IsModerate) ∧
      (∀ share ∈ spec.share, share.IsModerate) ∧ (∀ rate ∈ spec.rate, rate.IsModerate) ∧
        (∀ percent ∈ spec.ratePercent, percent.IsModerate) ∧ spec.parent.IsModerate := by
  have isNumber (number : Number) : number ∈ number? spec.id ↔ spec.id = .number number := by
    cases spec.id <;> simp [number?]
  simp only [isNumber]
  constructor
  · exact fun moderate =>
      ⟨moderate.id, moderate.share, moderate.rate, moderate.ratePercent, moderate.parent⟩
  · exact fun ⟨id, share, rate, ratePercent, parent⟩ => ⟨id, share, rate, ratePercent, parent⟩

instance (spec : TierSpec) : Decidable spec.IsModerate :=
  decidable_of_iff' _ TierSpec.isModerate_iff

namespace Settings

variable {settings : Settings}

/-- Settings whose numbers are all far below the largest double, as far as class trees are
made of them. -/
structure IsModerate (settings : Settings) : Prop where
  roundTrip : settings.roundTrip.IsModerate
  specs : ∀ spec ∈ settings.treeRequest.specs, spec.IsModerate

instance (settings : Settings) : Decidable settings.IsModerate :=
  decidable_of_iff (settings.roundTrip.IsModerate ∧
      ∀ spec ∈ settings.treeRequest.specs, spec.IsModerate)
    ⟨fun both => ⟨both.1, both.2⟩, fun moderate => ⟨moderate.roundTrip, moderate.specs⟩⟩

/-- The default tier of accepted settings has a share. -/
theorem defaultKind_of_ofDocument {locations : Locations} {document : Value}
    {source : Option Path} (accepted : ofDocument locations document source = .ok settings) :
    settings.treeRequest.defaultSpec.kind = .percentage := by
  rcases bind_eq_ok.mp accepted with ⟨_, _, read⟩
  rcases bind_eq_ok.mp read with ⟨_, _, read⟩
  rcases bind_eq_ok.mp read with ⟨_, _, read⟩
  rcases bind_eq_ok.mp read with ⟨last, collected, read⟩
  rcases bind_eq_ok.mp read with ⟨_, _, read⟩
  rcases bind_eq_ok.mp collected with ⟨spec, isSpec, collected⟩
  rcases bind_eq_ok.mp collected with ⟨_, _, isLast⟩
  rcases bind_eq_ok.mp isSpec with ⟨_, _, written⟩
  rw [← pure_eq_ok.mp read, ← pure_eq_ok.mp isLast, ← pure_eq_ok.mp written]
  rfl

end Settings

theorem Compiled.isAnswer_ofSettings {settings : Settings} {roundTrip : Number}
    (answers : IsAnswer (settings.treeRequest.compile roundTrip)) :
    IsAnswer (ofSettings settings roundTrip) :=
  answers.bind fun tree =>
    (RuleSet.surfaces_build tree settings.table).isAnswer.bind fun _ => isAnswer_ok _

namespace Session

open Host

variable {host : Host} {id : SessionId} {session : Session} {settings : Settings}

theorem isModerate_roundTripFor (session : Session) (moderate : settings.roundTrip.IsModerate) :
    (session.roundTripFor settings).IsModerate := by
  unfold roundTripFor
  split
  case isTrue equal => exact moderate.of_eq equal
  case isFalse => exact moderate

theorem isAnswer_targetFor (answers : IsAnswer (Compiled.ofSettings settings
    (session.roundTripFor settings))) : IsAnswer (session.targetFor settings) := by
  refine answers.bind fun compiled => ?_
  split
  · exact isAnswer_error rfl
  · exact isAnswer_ok _

/-! ## New sessions -/

/-- A session is made for settings, whether their class tree is made or refused. -/
theorem exists_make {roundTrip : Option Number}
    (decision : IsDecision
      (settings.treeRequest.compile (roundTrip.getD settings.roundTrip)))
    (provision : Provision) (host : Host) :
    ∃ host' id labels, make settings provision roundTrip host = .done host' (.ok id) ∧
      host'.sessions[id]? = some (fresh settings provision roundTrip labels) := by
  have labelled : ∃ host' labels, labelsFor settings (roundTrip.getD settings.roundTrip) host =
      .done host' (.ok labels) := by
    let records := settings.treeRequest.log (roundTrip.getD settings.roundTrip)
    have recorded : recordAll records host = .done (records.foldl logged host) (.ok ()) := rfl
    rw [labelsFor, Operation.bind_of_ok recorded]
    rcases decision with ⟨tree, made⟩ | ⟨error, refused⟩
    · rw [made]
      exact ⟨_, tree.labels, rfl⟩
    · rw [refused]
      exact ⟨_, [], rfl⟩
  rcases labelled with ⟨host', labels, isLabelled⟩
  let session := fresh settings provision roundTrip labels
  let added := { host' with sessions := host'.sessions ++ [session] }
  have adds : addSession session host' = .done added (.ok host'.sessions.length) := rfl
  refine ⟨added, host'.sessions.length, labels, (Operation.bind_of_ok isLabelled).trans adds, ?_⟩
  exact List.getElem?_concat_length

/-! ## Locks -/

/-- The files for the locks of a session are there or can be made. -/
structure IsAccessible (session : Session) (host : Host) : Prop where
  directory : session.lockDirectory.check = .ok ()
  writer : session.writerLock.check = .ok ()
  reader : session.readerLock.check = .ok ()
  files : ∃ made touched files,
    host.files.makeDirectories session.lockDirectory = ⟨made, none⟩ ∧
      made.touch session.writerLock = .ok touched ∧ touched.touch session.readerLock = .ok files

theorem IsLockable.isAccessible (lockable : session.IsLockable host) :
    session.IsAccessible host := by
  rcases lockable.files with ⟨made, touched, files, creates, touches, _, touchesToo⟩
  exact ⟨lockable.directory, lockable.writer, lockable.reader, made, touched, files, creates,
    touches, touchesToo⟩

/-- The locks are taken unless someone holds them. -/
theorem takeLocks_of_isAccessible (id : SessionId) (accessible : session.IsAccessible host) :
    (∃ host' error, takeLocks id session host = .done host' (.error (.busy error))) ∨
      ∃ host', takeLocks id session host = .done host' (.ok ()) ∧
        host'.sessions = host.sessions := by
  rcases accessible.files with ⟨made, touched, files, creates, touches, touchesToo⟩
  cases isLocked : ({ host with files := touched } : Host).isLocked session.writerLock with
  | false =>
      right
      exact exists_takeLocks ⟨accessible.directory, accessible.writer, accessible.reader,
        made, touched, files, creates, touches, isLocked, touchesToo⟩
  | true =>
      left
      have created := makeDirectories_eq accessible.directory creates
      have isTouched : touch session.writerLock { host with files := made } = _ :=
        touch_eq accessible.writer touches
      refine ⟨{ host with files := touched }, .lockHeld session.writerLock.text, ?_⟩
      unfold takeLocks
      rw [Operation.bind_of_ok created, Operation.bind_of_ok isTouched]
      change (if ({ host with files := touched } : Host).isLocked session.writerLock = true then
        _ else _ : HostOperation Unit) { host with files := touched } = _
      rw [if_pos isLocked]
      rfl

/-- What a session does once it is prepared it does under its locks, or it is turned away. -/
theorem proceed_of_isAccessible (target : Option Target)
    (known : host.sessions[id]? = some session) (accessible : session.IsAccessible host) :
    (∃ host' error, session.proceed id target host = .done host' (.error (.busy error))) ∨
      ∃ host', host'.sessions[id]? = some { session with isWriting := true } ∧
        session.proceed id target host =
          (do releasing id (session.carryOut id target); conclude id target :
            HostOperation Unit) host' := by
  cases isWriting : session.isWriting with
  | true =>
      exact .inl ⟨host, .session,
        Operation.bind_of_error (exclusively_eq_of_writing known isWriting)⟩
  | false =>
      have accessible' : session.IsAccessible (occupied host id) := { accessible with }
      rcases takeLocks_of_isAccessible id accessible' with
        ⟨host', error, held⟩ | ⟨host', taken, sessions⟩
      · exact .inl ⟨_, error, proceed_eq_of_error known isWriting held⟩
      · exact .inr ⟨host', sessions ▸ getElem?_occupied known,
          proceed_eq_of_ok known isWriting taken⟩

end Session

end UplinkShaper
